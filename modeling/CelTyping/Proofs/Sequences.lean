import CelTyping.Declaration.Error
import Mathlib.Data.List.Forall2

/-!
# Lists and steps that may fail

What the proofs use of lists and of computations that may fail, besides what the library has.

* `bind_eq_ok_iff`, `eq_ok_of_mapError`, `exists_of_mapM_eq_ok`: what it takes for a computation to
  succeed that is made of others.
* `runSteps_invariant`, `runSteps_forall`, `runSteps_error`: what a list of steps keeps and brings
  about, and where it stops.
* `findSome?_congr_of_mem`, `forall₂_imp_of_mem`, `eq_of_perm_of_length_le_one`: lists that are
  searched, compared or reordered.
-/

namespace CelTyping

variable {σ ε δ α β : Type}

/-! ## Computations that may fail -/

theorem bind_eq_ok_iff {x : Except ε α} {f : α → Except ε β} {b : β} :
    x >>= f = .ok b ↔ ∃ a, x = .ok a ∧ f a = .ok b := by
  cases x with
  | error err => simp [bind, Except.bind]
  | ok a => simp [bind, Except.bind]

theorem eq_ok_of_mapError {f : ε → δ} {x : Except ε α} {a : α} (h : x.mapError f = .ok a) :
    x = .ok a := by
  cases x with
  | error e => exact absurd h (by simp [Except.mapError])
  | ok b => exact congrArg Except.ok (Except.ok.inj h)

/-- What a traversal that succeeds has made of each item, and where its results come from. -/
theorem exists_of_mapM_eq_ok {f : α → Except ε β} {as : List α} {bs : List β}
    (h : as.mapM f = .ok bs) :
    (∀ a ∈ as, ∃ b ∈ bs, f a = .ok b) ∧ ∀ b ∈ bs, ∃ a ∈ as, f a = .ok b := by
  induction as generalizing bs with
  | nil =>
    obtain rfl : [] = bs := Except.ok.inj h
    simp
  | cons a as ih =>
    rw [List.mapM_cons] at h
    obtain ⟨b, hb, h⟩ := bind_eq_ok_iff.mp h
    obtain ⟨rest, hrest, h⟩ := bind_eq_ok_iff.mp h
    obtain rfl : b :: rest = bs := Except.ok.inj h
    obtain ⟨hto, hfrom⟩ := ih hrest
    refine ⟨List.forall_mem_cons.mpr ⟨⟨b, List.mem_cons_self, hb⟩, fun c hc => ?_⟩,
      List.forall_mem_cons.mpr ⟨⟨a, List.mem_cons_self, hb⟩, fun d hd => ?_⟩⟩
    · obtain ⟨d, hd, hcd⟩ := hto c hc
      exact ⟨d, List.mem_cons_of_mem b hd, hcd⟩
    · obtain ⟨c, hc, hcd⟩ := hfrom d hd
      exact ⟨c, List.mem_cons_of_mem a hc, hcd⟩

/-! ## Lists of steps -/

/-- What every step keeps that succeeds, a list of steps keeps. -/
theorem runSteps_invariant {step : σ → α → Except ε σ} {P : σ → Prop} {as : List α}
    (hstep : ∀ a ∈ as, ∀ s s', P s → step s a = .ok s' → P s') {s : σ} (hs : P s) :
    P (runSteps step s as).1 := by
  induction as generalizing s with
  | nil => exact hs
  | cons a rest ih =>
    obtain ⟨ha, hrest⟩ := List.forall_mem_cons.mp hstep
    cases hrun : step s a with
    | ok s' =>
      rw [runSteps_cons_ok hrun]
      exact ih hrest (ha s s' hs hrun)
    | error err =>
      rw [runSteps_cons_error hrun]
      exact hs

/-- What every step brings about and no later step undoes, a list that does not fail brings about
for all its items. -/
theorem runSteps_forall {step : σ → α → Except ε σ} {P : σ → Prop}
    {Q : α → σ → Prop} {as : List α}
    (hstep : ∀ a ∈ as, ∀ s s', P s → step s a = .ok s' →
      P s' ∧ Q a s' ∧ ∀ b, Q b s → Q b s') {s s' : σ} (hs : P s)
    (h : runSteps step s as = (s', none)) : (∀ b, Q b s → Q b s') ∧ ∀ a ∈ as, Q a s' := by
  induction as generalizing s with
  | nil =>
    cases h
    exact ⟨fun _ hb => hb, fun _ ha => absurd ha List.not_mem_nil⟩
  | cons a rest ih =>
    obtain ⟨ha, hrest⟩ := List.forall_mem_cons.mp hstep
    cases hrun : step s a with
    | ok s₁ =>
      rw [runSteps_cons_ok hrun] at h
      obtain ⟨hs₁, hself, hkeep⟩ := ha s s₁ hs hrun
      obtain ⟨hkeep', hall⟩ := ih hrest hs₁ h
      exact ⟨fun b hb => hkeep' b (hkeep b hb),
        List.forall_mem_cons.mpr ⟨hkeep' a hself, hall⟩⟩
    | error e =>
      rw [runSteps_cons_error hrun] at h
      exact absurd h (by simp)

/-- **A list that fails stops at an item**: the state is the one that the items before it lead to,
and from there the item fails. -/
theorem runSteps_error {step : σ → α → Except ε σ} {s s' : σ} {as : List α} {e : ε}
    (h : runSteps step s as = (s', some e)) :
    ∃ before a after, as = before ++ a :: after ∧ runSteps step s before = (s', none) ∧
      step s' a = .error e := by
  induction as generalizing s with
  | nil => exact absurd h (by simp [runSteps_nil])
  | cons a rest ih =>
    cases hstep : step s a with
    | ok s₁ =>
      rw [runSteps_cons_ok hstep] at h
      obtain ⟨before, b, after, rfl, hrun, herror⟩ := ih h
      refine ⟨a :: before, b, after, rfl, ?_, herror⟩
      rw [runSteps_cons_ok hstep]
      exact hrun
    | error e' =>
      rw [runSteps_cons_error hstep] at h
      cases h
      exact ⟨[], a, rest, rfl, rfl, hstep⟩

/-! ## Lists -/

theorem findSome?_congr_of_mem {f g : α → Option β} {as : List α}
    (h : ∀ a ∈ as, f a = g a) : as.findSome? f = as.findSome? g := by
  induction as with
  | nil => rfl
  | cons a rest ih =>
    obtain ⟨ha, hrest⟩ := List.forall_mem_cons.mp h
    rw [List.findSome?_cons, List.findSome?_cons, ha, ih hrest]

/-- A relation between the items of two lists may be replaced by one that follows for these
items. -/
theorem forall₂_imp_of_mem {R S : α → β → Prop} {as : List α} {bs : List β}
    (h : List.Forall₂ R as bs) (hRS : ∀ a ∈ as, ∀ b ∈ bs, R a b → S a b) :
    List.Forall₂ S as bs := by
  induction h with
  | nil => exact .nil
  | cons hab _ ih =>
    refine .cons (hRS _ List.mem_cons_self _ List.mem_cons_self hab) (ih fun a ha b hb => ?_)
    exact hRS a (List.mem_cons_of_mem _ ha) b (List.mem_cons_of_mem _ hb)

/-- Lists of at most one element that are permutations of each other are equal. -/
theorem eq_of_perm_of_length_le_one {as bs : List α} (h : as.Perm bs)
    (hle : bs.length ≤ 1) : as = bs := by
  rcases bs with _ | ⟨b, _ | ⟨c, rest⟩⟩
  · exact List.perm_nil.mp h
  · exact List.perm_singleton.mp h
  · exact absurd hle (by simp)

end CelTyping
