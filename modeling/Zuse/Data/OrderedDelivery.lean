import Mathlib.Data.List.Basic
import Mathlib.Data.List.Nodup
import Mathlib.Data.List.Perm.Subperm

namespace Zuse.Data

open List

/-! Items of several streams take effect at most once each. A plan says in which order. -/

variable {α : Type u} {ι : Type v} {κ : Type w} [DecidableEq ι] [DecidableEq κ]

/-- An item takes effect unless one of the same identity already has. -/
def deliver (identity : α → ι) (log : List α) (item : α) : List α :=
  if identity item ∈ log.map identity then log else log ++ [item]

def onStream (stream : α → κ) (items : List α) (key : κ) : List α :=
  items.filter fun item => stream item = key

section Deliver

variable {identity : α → ι} {stream : α → κ} {plan log : List α} {item : α}

theorem subset_deliver : log ⊆ deliver identity log item := by
  unfold deliver
  split
  · exact List.Subset.refl _
  · exact subset_append_left _ _

variable {items : List α}

@[simp] theorem mem_onStream {key : κ} :
    item ∈ onStream stream items key ↔ item ∈ items ∧ stream item = key := by
  simp [onStream]

@[simp] theorem onStream_nil (key : κ) : onStream stream [] key = [] := rfl

@[simp] theorem onStream_append (left right : List α) (key : κ) :
    onStream stream (left ++ right) key = onStream stream left key ++ onStream stream right key :=
  filter_append left right

theorem onStream_cons (items : List α) (key : κ) :
    onStream stream (item :: items) key =
      if stream item = key then item :: onStream stream items key
      else onStream stream items key := by
  simp [onStream, filter_cons]

theorem foldl_deliver (once : ((log ++ items).map identity).Nodup) :
    items.foldl (deliver identity) log = log ++ items := by
  induction items generalizing log with
  | nil => exact (append_nil log).symm
  | cons item items ih =>
    have split : log ++ item :: items = log ++ [item] ++ items := by simp
    rw [split] at once ⊢
    have early : ((log ++ [item]).map identity).Nodup := by
      rw [map_append] at once
      exact once.of_append_left
    have missing : identity item ∉ log.map identity := by
      rw [map_append, nodup_append] at early
      exact fun member => early.2.2 _ member _ (mem_singleton_self _) rfl
    rw [foldl_cons, deliver, if_neg missing]
    exact ih once

end Deliver

theorem eq_of_prefix_of_subset {whole part : List α} (once : whole.Nodup)
    (leads : part <+: whole) (covers : whole ⊆ part) : part = whole :=
  leads.eq_of_length (Nat.le_antisymm leads.length_le (once.subperm covers).length_le)

def Leads (stream : α → κ) (plan log : List α) : Prop :=
  ∀ key, onStream stream log key <+: onStream stream plan key

namespace Leads

variable {identity : α → ι} {stream : α → κ} {plan log : List α} {item : α}

theorem nil : Leads stream plan [] := fun _ => prefix_append [] _

section

variable (leads : Leads stream plan log)
include leads

theorem subset : log ⊆ plan := by
  intro item member
  have onPlan := (leads (stream item)).subset (mem_onStream.mpr ⟨member, rfl⟩)
  exact (mem_onStream.mp onPlan).1

omit [DecidableEq ι] in
theorem mem_of_identity (once : (plan.map identity).Nodup)
    (planned : item ∈ plan) (delivered : identity item ∈ log.map identity) : item ∈ log := by
  obtain ⟨earlier, member, same⟩ := mem_map.mp delivered
  have equal := inj_on_of_nodup_map once (leads.subset member) planned same
  exact equal ▸ member

theorem mem_deliver (once : (plan.map identity).Nodup)
    (planned : item ∈ plan) : item ∈ deliver identity log item := by
  unfold deliver
  split
  · next delivered => exact leads.mem_of_identity once planned delivered
  · exact mem_append_right _ (mem_singleton_self item)

theorem deliver (once : (plan.map identity).Nodup) {before after : List α}
    (planned : onStream stream plan (stream item) = before ++ item :: after)
    (delivered : before ⊆ log) : Leads stream plan (deliver identity log item) := by
  unfold Data.deliver
  split
  · exact leads
  next missing =>
    intro key
    rw [onStream_append, onStream_cons, onStream_nil]
    split
    next here =>
      subst here
      have onceHere : (before ++ item :: after).Nodup :=
        planned ▸ (List.Nodup.of_map identity once).filter _
      have leadsHere := leads (stream item)
      rw [planned] at leadsHere ⊢
      have covers : before ⊆ onStream stream log (stream item) := by
        intro earlier member
        have onPlan : earlier ∈ onStream stream plan (stream item) :=
          planned ▸ mem_append_left _ member
        exact mem_onStream.mpr ⟨delivered member, (mem_onStream.mp onPlan).2⟩
      have absent : item ∉ onStream stream log (stream item) := fun member =>
        missing (mem_map_of_mem (mem_onStream.mp member).1)
      have short : onStream stream log (stream item) <+: before := by
        obtain short | long :=
          prefix_or_prefix_of_prefix leadsHere (prefix_append before _)
        · exact short
        obtain ⟨rest, split⟩ := long
        cases rest with
        | nil =>
          rw [append_nil] at split
          exact ⟨[], (append_nil _).trans split.symm⟩
        | cons head rest =>
          rw [← split, prefix_append_right_inj, cons_prefix_cons] at leadsHere
          rw [← split, leadsHere.1] at absent
          exact absurd (mem_append_right _ mem_cons_self) absent
      have whole := eq_of_prefix_of_subset onceHere.of_append_left short covers
      rw [whole, prefix_append_right_inj, cons_prefix_cons]
      exact ⟨rfl, prefix_append [] _⟩
    next elsewhere =>
      rw [append_nil]
      exact leads key

theorem onStream_eq (once : plan.Nodup)
    (delivered : plan ⊆ log) (key : κ) : onStream stream log key = onStream stream plan key := by
  refine eq_of_prefix_of_subset (once.filter _) (leads key) ?_
  intro item member
  have onPlan := mem_onStream.mp member
  exact mem_onStream.mpr ⟨delivered onPlan.1, onPlan.2⟩

theorem nodup (once : plan.Nodup) : log.Nodup := by
  classical
  rw [nodup_iff_count_le_one]
  intro item
  have counted : (onStream stream log (stream item)).count item = log.count item :=
    count_filter (by simp)
  have onStreamOnce := (once.filter _).sublist (leads (stream item)).sublist
  exact counted ▸ nodup_iff_count_le_one.mp onStreamOnce item

end

end Leads

end Zuse.Data
