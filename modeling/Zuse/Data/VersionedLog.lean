import Mathlib.Data.List.Nodup
import Mathlib.Data.List.Pairwise

namespace Zuse.Data

open List

/-! An append-only log of several streams. The entries of a stream are numbered from
one, and every recorded request leaves one receipt for the block of entries it
appended. -/

structure LogEntry (σ : Type u) (ι : Type v) where
  stream : σ
  version : Nat
  id : ι

structure LogReceipt (κ : Type w) (σ : Type u) (ι : Type v) where
  key : κ
  stream : σ
  version : Nat
  ids : List ι

structure VersionedLog (κ : Type w) (σ : Type u) (ι : Type v) where
  entries : List (LogEntry σ ι)
  receipts : List (LogReceipt κ σ ι)

/-- The entries for the ids of a stream, numbered from the version after `after`. -/
def numbered (stream : σ) (after : Nat) : List ι → List (LogEntry σ ι)
  | [] => []
  | id :: rest => ⟨stream, after + 1, id⟩ :: numbered stream (after + 1) rest

@[simp] theorem numbered_length (stream : σ) (after : Nat) (ids : List ι) :
    (numbered stream after ids).length = ids.length := by
  induction ids generalizing after with
  | nil => rfl
  | cons id rest ih => simp [numbered, ih]

@[simp] theorem numbered_ids (stream : σ) (after : Nat) (ids : List ι) :
    (numbered stream after ids).map (·.id) = ids := by
  induction ids generalizing after with
  | nil => rfl
  | cons id rest ih => simp [numbered, ih]

@[simp] theorem numbered_versions (stream : σ) (after : Nat) (ids : List ι) :
    (numbered stream after ids).map (·.version) = List.range' (after + 1) ids.length := by
  induction ids generalizing after with
  | nil => rfl
  | cons id rest ih => simp [numbered, ih, List.range'_succ]

theorem mem_numbered {stream : σ} {after : Nat} {ids : List ι} {entry : LogEntry σ ι}
    (member : entry ∈ numbered stream after ids) :
    entry.stream = stream ∧ after < entry.version ∧ entry.version ≤ after + ids.length := by
  induction ids generalizing after with
  | nil => cases member
  | cons id rest ih =>
    rcases mem_cons.mp member with rfl | later
    · exact ⟨rfl, by simp, by simp⟩
    · obtain ⟨same, above, below⟩ := ih later
      refine ⟨same, by omega, ?_⟩
      rw [length_cons]
      omega

namespace VersionedLog

variable {κ : Type w} {σ : Type u} {ι : Type v} [DecidableEq σ]

def streamEntries (log : VersionedLog κ σ ι) (stream : σ) : List (LogEntry σ ι) :=
  log.entries.filter (·.stream = stream)

def length (log : VersionedLog κ σ ι) (stream : σ) : Nat :=
  (log.streamEntries stream).length

/-- The entries of a stream with a version in the interval that is open on the left. -/
def between (log : VersionedLog κ σ ι) (stream : σ) (fromExclusive toInclusive : Nat) :
    List (LogEntry σ ι) :=
  (log.streamEntries stream).filter fun entry =>
    fromExclusive < entry.version ∧ entry.version ≤ toInclusive

def empty : VersionedLog κ σ ι := ⟨[], []⟩

def record (log : VersionedLog κ σ ι) (key : κ) (stream : σ) (ids : List ι) :
    VersionedLog κ σ ι where
  entries := log.entries ++ numbered stream (log.length stream) ids
  receipts := log.receipts ++ [⟨key, stream, log.length stream + ids.length, ids⟩]

/-- Receipts and streams account for each other. -/
structure Exact (log : VersionedLog κ σ ι) : Prop where
  keys : (log.receipts.map (·.key)).Nodup
  ids : (log.entries.map (·.id)).Nodup
  versions : ∀ stream, (log.streamEntries stream).map (·.version) =
    List.range' 1 (log.length stream)
  shared : log.receipts.flatMap (·.ids) = log.entries.map (·.id)
  block : ∀ receipt ∈ log.receipts,
    receipt.ids.length ≤ receipt.version ∧ receipt.version ≤ log.length receipt.stream ∧
      (log.between receipt.stream (receipt.version - receipt.ids.length)
        receipt.version).map (·.id) = receipt.ids

variable {other : σ}

section Record

variable (log : VersionedLog κ σ ι) (key : κ) (stream : σ) (ids : List ι)

@[simp] theorem streamEntries_record_self :
    (log.record key stream ids).streamEntries stream =
      log.streamEntries stream ++ numbered stream (log.length stream) ids := by
  have all : (numbered stream (log.length stream) ids).filter (·.stream = stream) =
      numbered stream (log.length stream) ids :=
    filter_eq_self.mpr fun entry member => by simp [(mem_numbered member).1]
  rw [streamEntries, record, filter_append, all, ← streamEntries]

theorem streamEntries_record_other (different : other ≠ stream) :
    (log.record key stream ids).streamEntries other = log.streamEntries other := by
  have noOther : (numbered stream (log.length stream) ids).filter (·.stream = other) = [] :=
    filter_eq_nil_iff.mpr fun entry member => by
      simp [(mem_numbered member).1, Ne.symm different]
  rw [streamEntries, record, filter_append, noOther, append_nil, ← streamEntries]

@[simp] theorem length_record_self :
    (log.record key stream ids).length stream = log.length stream + ids.length := by
  simp [length]

theorem length_record_other (different : other ≠ stream) :
    (log.record key stream ids).length other = log.length other := by
  simp [length, streamEntries_record_other log key stream ids different]

theorem length_le_record (other : σ) :
    log.length other ≤ (log.record key stream ids).length other := by
  by_cases same : other = stream
  · subst same
    simp
  · exact Nat.le_of_eq (length_record_other log key stream ids same).symm

end Record

variable {log : VersionedLog κ σ ι}

theorem Exact.empty : (empty : VersionedLog κ σ ι).Exact where
  keys := nodup_nil
  ids := nodup_nil
  versions := fun _ => rfl
  shared := rfl
  block := forall_mem_nil _

theorem Exact.version_le (exact : log.Exact) {stream : σ} {entry : LogEntry σ ι}
    (member : entry ∈ log.streamEntries stream) : entry.version ≤ log.length stream := by
  have listed := mem_map_of_mem (f := (·.version)) member
  rw [exact.versions stream, mem_range'_1] at listed
  omega

theorem between_record (log : VersionedLog κ σ ι) (key : κ) (stream : σ) (ids : List ι)
    {fromExclusive toInclusive : Nat} (within : toInclusive ≤ log.length other) :
    (log.record key stream ids).between other fromExclusive toInclusive =
      log.between other fromExclusive toInclusive := by
  by_cases same : other = stream
  · subst same
    have later : (numbered other (log.length other) ids).filter
        (fun entry => fromExclusive < entry.version ∧ entry.version ≤ toInclusive) = [] :=
      filter_eq_nil_iff.mpr fun entry member => by
        have above := (mem_numbered member).2.1
        simp only [decide_eq_true_eq]
        omega
    rw [between, streamEntries_record_self, filter_append, later, append_nil, ← between]
  · rw [between, streamEntries_record_other log key stream ids same, ← between]

theorem Exact.between_recorded (exact : log.Exact) (key : κ) (stream : σ) (ids : List ι) :
    (log.record key stream ids).between stream (log.length stream)
        (log.length stream + ids.length) =
      numbered stream (log.length stream) ids := by
  have earlier : (log.streamEntries stream).filter
      (fun entry => log.length stream < entry.version ∧
        entry.version ≤ log.length stream + ids.length) = [] :=
    filter_eq_nil_iff.mpr fun entry member => by
      have below := exact.version_le member
      simp only [decide_eq_true_eq]
      omega
  rw [between, streamEntries_record_self, filter_append, earlier]
  exact filter_eq_self.mpr fun entry member => by
    obtain ⟨-, above, below⟩ := mem_numbered member
    simp only [decide_eq_true_eq]
    exact ⟨above, below⟩

theorem Exact.record (exact : log.Exact) {key : κ} {stream : σ} {ids : List ι}
    (absent : key ∉ log.receipts.map (·.key)) (nodup : ids.Nodup)
    (fresh : ∀ id ∈ ids, id ∉ log.entries.map (·.id)) : (log.record key stream ids).Exact where
  keys := by
    rw [VersionedLog.record, map_append, nodup_append]
    refine ⟨exact.keys, nodup_singleton _, ?_⟩
    intro known knownMember new newMember equal
    rw [map_singleton, mem_singleton] at newMember
    rw [equal, newMember] at knownMember
    exact absent knownMember
  ids := by
    rw [VersionedLog.record, map_append, numbered_ids, nodup_append]
    refine ⟨exact.ids, nodup, ?_⟩
    intro known knownMember new newMember equal
    rw [equal] at knownMember
    exact fresh new newMember knownMember
  versions := by
    intro other
    by_cases same : other = stream
    · subst same
      rw [streamEntries_record_self, length_record_self, map_append,
        exact.versions other, numbered_versions, Nat.add_comm (log.length other) 1,
        List.range'_append_1]
    · rw [streamEntries_record_other log key stream ids same,
        length_record_other log key stream ids same]
      exact exact.versions other
  shared := by
    simp only [VersionedLog.record, flatMap_append, map_append, numbered_ids,
      exact.shared, flatMap_singleton]
  block := by
    intro receipt member
    rw [VersionedLog.record, mem_append, mem_singleton] at member
    rcases member with known | rfl
    · obtain ⟨counted, within, listed⟩ := exact.block receipt known
      refine ⟨counted, Nat.le_trans within (length_le_record log key stream ids _), ?_⟩
      rw [between_record log key stream ids within]
      exact listed
    · refine ⟨Nat.le_add_left _ _, Nat.le_of_eq (length_record_self log key stream ids).symm, ?_⟩
      rw [Nat.add_sub_cancel, exact.between_recorded key stream ids, numbered_ids]

theorem Exact.owner (exact : log.Exact) {entry : LogEntry σ ι} (member : entry ∈ log.entries) :
    ∃! receipt, receipt ∈ log.receipts ∧ entry.id ∈ receipt.ids := by
  have listed : entry.id ∈ log.receipts.flatMap (·.ids) := by
    rw [exact.shared]
    exact mem_map_of_mem member
  obtain ⟨receipt, issued, owns⟩ := mem_flatMap.mp listed
  refine ⟨receipt, ⟨issued, owns⟩, ?_⟩
  rintro other ⟨otherIssued, otherOwns⟩
  have nodup : (log.receipts.flatMap (·.ids)).Nodup := exact.shared ▸ exact.ids
  have disjoint := (nodup_flatMap.mp nodup).2
  have symmetric : Std.Symm (Function.onFun List.Disjoint fun receipt :
      LogReceipt κ σ ι => receipt.ids) := ⟨fun _ _ apart _ left right => apart right left⟩
  by_contra different
  exact disjoint.forall otherIssued issued different otherOwns owns

end VersionedLog

end Zuse.Data
