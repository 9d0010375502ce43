import Mathlib.Data.List.InsertIdx
import Zuse.Data.Scripts

namespace Zuse.Data

open List Option

/-! Scripts by the calls they make, and by the rights that their calls spend. -/

namespace Script

variable {σ κ ε τ : Type} {ρ : κ → Type} {α β : Type}

def Makes (allowed : κ → Prop) : Script κ ρ α → Prop
  | .done _ => True
  | .call request rest => allowed request ∧ ∀ reply, (rest reply).Makes allowed

section Makes

variable {allowed wider : κ → Prop}

theorem Makes.bind {script : Script κ ρ α} {next : α → Script κ ρ β}
    (first : script.Makes allowed) (after : ∀ value, (next value).Makes allowed) :
    (script >>= next).Makes allowed := by
  induction script with
  | done value => exact after value
  | call request rest ih => exact ⟨first.1, fun reply => ih reply (first.2 reply)⟩

theorem Makes.mono {script : Script κ ρ α} (implies : ∀ request, allowed request → wider request)
    (makes : script.Makes allowed) : script.Makes wider := by
  induction script with
  | done value => trivial
  | call request rest ih =>
    exact ⟨implies request makes.1, fun reply => ih reply (makes.2 reply)⟩

theorem Makes.keeps {service : Service σ κ ε ρ} {conduct : Conduct σ κ ε}
    (refl : ∀ state, conduct.change state state)
    (trans : ∀ {first second third}, conduct.change first second →
      conduct.change second third → conduct.change first third)
    (alone : ∀ request, allowed request → ∀ state choice, conduct.sound state →
      conduct.admits state request choice →
        conduct.change state (service request choice state).2 ∧
          conduct.sound (service request choice state).2)
    {script : Script κ ρ α} (makes : script.Makes allowed) (state : σ) :
    script.Keeps service conduct (fun _ last => conduct.change state last) state := by
  induction script generalizing state with
  | done value => exact refl state
  | call request rest ih =>
    intro later changed sound choice admitted
    obtain ⟨guaranteed, still⟩ := alone request makes.1 later choice sound admitted
    refine ⟨guaranteed, still, ?_⟩
    refine (ih _ (makes.2 _) _).mono ?_
    intro _ last further
    exact trans (trans changed guaranteed) further

end Makes

end Script

/-- What a call spends of the rights of its script, and what its reply adds to them. -/
structure Rights (κ : Type) (ρ : κ → Type) (τ : Type) where
  needs : κ → Option τ
  grants : (request : κ) → ρ request → Option τ

namespace Rights

variable {κ τ : Type} {ρ : κ → Type} [DecidableEq τ] (rights : Rights κ ρ τ)

def after (request : κ) (reply : ρ request) (held : List τ) : List τ :=
  (rights.grants request reply).toList ++ held.filter fun right => rights.needs request ≠ some right

theorem mem_after {request : κ} {reply : ρ request} {held : List τ} {right : τ} :
    right ∈ rights.after request reply held ↔
      rights.grants request reply = some right ∨
        right ∈ held ∧ rights.needs request ≠ some right := by
  unfold after
  rw [mem_append, mem_filter, mem_toList]
  exact or_congr_right (and_congr_right fun _ => decide_eq_true_iff)

end Rights

namespace Script

variable {κ τ : Type} {ρ : κ → Type} {α β : Type} [DecidableEq τ]

def Spends (rights : Rights κ ρ τ) : Script κ ρ α → (α → List τ → Prop) → List τ → Prop
  | .done value, post, held => post value held
  | .call request rest, post, held =>
    (∀ right, rights.needs request = some right → right ∈ held) ∧
      ∀ reply, (rest reply).Spends rights post (rights.after request reply held)

section Spends

variable {rights : Rights κ ρ τ}

theorem Spends.mono {script : Script κ ρ α} {post weaker : α → List τ → Prop}
    (implies : ∀ value held, post value held → weaker value held) {held : List τ}
    (spends : script.Spends rights post held) : script.Spends rights weaker held := by
  induction script generalizing held with
  | done value => exact implies value held spends
  | call request rest ih => exact ⟨spends.1, fun reply => ih reply (spends.2 reply)⟩

theorem Spends.bind {script : Script κ ρ α} {next : α → Script κ ρ β}
    {post : β → List τ → Prop} {held : List τ}
    (spends : script.Spends rights (fun value held => (next value).Spends rights post held) held) :
    (script >>= next).Spends rights post held := by
  induction script generalizing held with
  | done value => exact spends
  | call request rest ih => exact ⟨spends.1, fun reply => ih reply (spends.2 reply)⟩

theorem Makes.spends {allowed : κ → Prop}
    (free : ∀ request, allowed request → rights.needs request = none)
    {script : Script κ ρ α} (makes : script.Makes allowed) (held : List τ) :
    script.Spends rights (fun _ later => held ⊆ later) held := by
  induction script generalizing held with
  | done value => exact List.Subset.refl held
  | call request rest ih =>
    have needless := free request makes.1
    refine ⟨?_, ?_⟩
    · intro right needed
      rw [needless] at needed
      cases needed
    intro reply
    refine (ih reply (makes.2 reply) _).mono ?_
    intro _ later kept right member
    refine kept (rights.mem_after.mpr (.inr ⟨member, ?_⟩))
    rw [needless]
    exact some_ne_none right |>.symm

end Spends

end Script

namespace Operations

variable {σ κ ε τ : Type} {ρ : κ → Type} {ο ι : Type} [DecidableEq τ]
  (operations : Operations σ κ ε ρ ο ι) (rights : Rights κ ρ τ)

/-- What makes rights last until they are spent: a call keeps all but the one it spends,
and its reply adds none that is there. -/
structure Lawful (sound : σ → Prop) (valid : σ → τ → Prop)
    (admits : ο → σ → κ → ε → Prop) (permits : σ → ι → Prop) : Prop where
  program : ∀ operation state,
    (operations.program operation state).Spends rights (fun _ _ => True) []
  call : ∀ operation request choice state, sound state → admits operation state request choice →
    (∀ right, rights.needs request = some right → valid state right) →
      sound (operations.service request choice state).2 ∧
      (∀ right, valid state right → rights.needs request ≠ some right →
        valid (operations.service request choice state).2 right) ∧
      ∀ right, rights.grants request (operations.service request choice state).1 =
        some right → valid (operations.service request choice state).2 right ∧ ¬ valid state right
  interrupt : ∀ which state next, sound state → permits state which →
    operations.interrupt which state = some next →
      sound next ∧ ∀ right, valid state right → valid next right

structure Rightful (sound : σ → Prop) (valid : σ → τ → Prop) (pool : Pool σ κ ρ ο)
    (shares : List ((ο × Script κ ρ Unit) × List τ)) : Prop where
  sound : sound pool.state
  scripts : shares.map Prod.fst = pool.running
  spends : ∀ share ∈ shares, share.1.2.Spends rights (fun _ _ => True) share.2
  valid : ∀ share ∈ shares, ∀ right ∈ share.2, valid pool.state right
  disjoint : shares.Pairwise fun first second => ∀ right ∈ first.2, right ∉ second.2

section Adequacy

variable {operations rights} {sound : σ → Prop} {valid : σ → τ → Prop}
  {admits : ο → σ → κ → ε → Prop} {permits : σ → ι → Prop}
  {pool next : Pool σ κ ρ ο} {shares : List ((ο × Script κ ρ Unit) × List τ)}

theorem pairwise_set {γ : Type} {related : γ → γ → Prop}
    (symm : ∀ first second, related first second → related second first)
    {rows : List γ} {index : Nat} {row : γ} (pairwise : rows.Pairwise related)
    (fits : ∀ place (below : place < rows.length), place ≠ index →
      related row (rows.get ⟨place, below⟩)) :
    (rows.set index row).Pairwise related := by
  rw [pairwise_iff_getElem] at pairwise ⊢
  intro first second firstBelow secondBelow before
  rw [length_set] at firstBelow secondBelow
  rw [getElem_set, getElem_set]
  split
  · rw [if_neg (by omega)]
    exact fits second secondBelow (by omega)
  rename_i elsewhere
  split
  · exact symm _ _ (fits first firstBelow (fun same => elsewhere same.symm))
  · exact pairwise first second firstBelow secondBelow before

theorem Rightful.step (lawful : operations.Lawful rights sound valid admits permits)
    {event : Event ε ο ι} (rightful : Rightful rights sound valid pool shares)
    (admitted : Admitted admits permits pool event)
    (stepped : operations.step pool event = some next) :
    ∃ later, Rightful rights sound valid next later := by
  cases event with
  | begin operation =>
    cases stepped
    refine ⟨shares ++ [((operation, operations.program operation pool.state), [])], ?_⟩
    constructor
    · exact rightful.sound
    · rw [map_append, rightful.scripts]
      rfl
    · intro share member
      rcases mem_concat.mp member with before | rfl
      · exact rightful.spends share before
      · exact lawful.program operation pool.state
    · intro share member right held
      rcases mem_append.mp member with before | new
      · exact rightful.valid share before right held
      · rw [mem_singleton.mp new] at held
        cases held
    · refine pairwise_append.mpr ⟨rightful.disjoint, pairwise_singleton _ _, ?_⟩
      intro first _ second new right _
      rw [mem_singleton.mp new]
      exact not_mem_nil
  | abandon index =>
    obtain ⟨current, _, rfl⟩ := map_eq_some_iff.mp stepped
    refine ⟨shares.eraseIdx index, ?_⟩
    exact
      { sound := rightful.sound
        scripts := by rw [← eraseIdx_map, rightful.scripts]
        spends := fun share member =>
          rightful.spends share (mem_of_mem_eraseIdx member)
        valid := fun share member =>
          rightful.valid share (mem_of_mem_eraseIdx member)
        disjoint := rightful.disjoint.sublist (eraseIdx_sublist _ _) }
  | interrupt which =>
    obtain ⟨state, happened, rfl⟩ := map_eq_some_iff.mp stepped
    obtain ⟨still, kept⟩ :=
      lawful.interrupt which pool.state state rightful.sound admitted happened
    exact ⟨shares,
      { sound := still
        scripts := rightful.scripts
        spends := rightful.spends
        valid := fun share member right held =>
          kept right (rightful.valid share member right held)
        disjoint := rightful.disjoint }⟩
  | proceed index choice =>
    obtain ⟨⟨operation, script⟩, runs, rfl⟩ := map_eq_some_iff.mp stepped
    cases script with
    | done value =>
      refine ⟨shares.eraseIdx index, ?_⟩
      exact
        { sound := rightful.sound
          scripts := by
            rw [← eraseIdx_map, rightful.scripts]
            rfl
          spends := fun share member =>
            rightful.spends share (mem_of_mem_eraseIdx member)
          valid := fun share member =>
            rightful.valid share (mem_of_mem_eraseIdx member)
          disjoint := rightful.disjoint.sublist (eraseIdx_sublist _ _) }
    | call request rest =>
      have mapped : (shares.map Prod.fst)[index]? = some (operation, .call request rest) := by
        rw [rightful.scripts]
        exact runs
      rw [List.getElem?_map, map_eq_some_iff] at mapped
      obtain ⟨⟨current, held⟩, shared, same⟩ := mapped
      cases same
      have member := mem_of_getElem? shared
      have spends := rightful.spends _ member
      have owns := rightful.valid _ member
      obtain ⟨still, kept, granted⟩ := lawful.call operation request choice pool.state
        rightful.sound (admitted operation request rest runs)
        (fun right needed => owns right (spends.1 right needed))
      obtain ⟨below, here⟩ := List.getElem?_eq_some_iff.mp shared
      -- A script keeps to itself the rights that it spends and those it is granted.
      have apart : ∀ place (inside : place < shares.length), place ≠ index →
          ∀ right ∈ (shares.get ⟨place, inside⟩).2, right ∉ held := by
        intro place inside elsewhere right isOther isHeld
        have pairwise := pairwise_iff_getElem.mp rightful.disjoint
        rcases Nat.lt_or_gt_of_ne elsewhere with before | after
        · have disjoint := pairwise place index inside below before right isOther
          rw [here] at disjoint
          exact disjoint isHeld
        · have disjoint := pairwise index place below inside after right
          rw [here] at disjoint
          exact disjoint isHeld isOther
      let reply := (operations.service request choice pool.state).1
      refine ⟨shares.set index ((operation, rest reply),
        rights.after request reply held), ?_⟩
      constructor
      · exact still
      · rw [map_set, rightful.scripts]
        rfl
      · intro share isShare
        rcases mem_or_eq_of_mem_set isShare with before | rfl
        · exact rightful.spends share before
        · exact spends.2 reply
      · intro share isShare right isHeld
        rcases List.getElem?_of_mem isShare with ⟨place, found⟩
        rw [List.getElem?_set] at found
        split at found
        · cases found
          rcases (rights.mem_after).mp isHeld with isGranted | ⟨before, unspent⟩
          · exact (granted right isGranted).1
          · exact kept right (owns right before) unspent
        · rename_i elsewhere
          obtain ⟨inside, rfl⟩ := List.getElem?_eq_some_iff.mp found
          refine kept right (rightful.valid _ (getElem_mem inside) right isHeld) ?_
          intro needed
          exact apart place inside (fun same => elsewhere same.symm) right isHeld
            (spends.1 right needed)
      · refine pairwise_set (fun first second disjoint right isSecond isFirst =>
          disjoint right isFirst isSecond) rightful.disjoint ?_
        intro place inside elsewhere right isOurs isOther
        rcases (rights.mem_after).mp isOurs with isGranted | ⟨before, _⟩
        · exact (granted right isGranted).2 (rightful.valid _ (getElem_mem inside) right isOther)
        · exact apart place inside elsewhere right isOther before

theorem runFrom_rightful (lawful : operations.Lawful rights sound valid admits permits)
    {state : σ} {last : Pool σ κ ρ ο} {events : List (Event ε ο ι)}
    (rightful : ∃ shares, Rightful rights sound valid pool shares)
    (ran : (operations.system state).runFrom pool events = some last)
    (admitted : (operations.system state).EachStep (Admitted admits permits) pool events) :
    ∃ shares, Rightful rights sound valid last shares := by
  refine TransitionSystem.EachStep.invariant
    (fun pool => ∃ shares, Rightful rights sound valid pool shares) ?_ admitted ran rightful
  rintro pool event next ⟨shares, rightful⟩ meets stepped
  exact rightful.step lawful meets stepped

theorem initial_rightful {state : σ} (holds : sound state) :
    ∃ shares, Rightful rights sound valid (operations.system state).init shares :=
  ⟨[],
    { sound := holds
      scripts := rfl
      spends := forall_mem_nil _
      valid := forall_mem_nil _
      disjoint := List.Pairwise.nil }⟩

end Adequacy

end Operations

end Zuse.Data
