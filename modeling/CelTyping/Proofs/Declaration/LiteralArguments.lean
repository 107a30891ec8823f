import CelTyping.Declaration.Entry
import CelTyping.Proofs.Declaration.Separation
import CelTyping.Proofs.Unification.Ground

/-!
# Literal arguments, checked and called

A call is looked at twice.  The checker unifies the types of the arguments with the formal types of
an overload; an evaluator asks whether the arguments fit the formal types (`Overload.fits`) before
it runs the implementation.  The two questions are answered by different relations, unification and
acceptance, and one would like every call that the checker resolves to pass the second question.

For literals the relations can be compared outright, as the type of a literal has neither
parameters nor a rule of acceptance of its own.  Unification is the more generous one in three ways,
which `Ty.overlooks` lists.

* `error` goes together with everything, but accepts nothing.
* `null` goes together with messages, abstract types, durations and timestamps by their kind;
  accepting it takes an exception for `null`.
* A duration or a timestamp goes together with the type of `null`, because the relation is
  symmetric there.

These are all the differences (`fits_eq_of_unifyAll`), and they do arise (`null_refused`).
-/

namespace CelTyping

namespace Ty

/-- Whether a literal goes together with a type that does not accept it. -/
def overlooks (t : Ty) : Constant → Bool
  | .null =>
    !t.acceptance.takesNull && (t.kind ∈ [.error, .struct, .abstract, .duration, .timestamp] ||
      (t.kind == .null && !null.isExact t))
  | .duration _ _ | .timestamp _ _ => t.kind ∈ [.error, .null]
  | _ => t.kind == .error

/-- The type of a literal has no parameters. -/
theorem params_constant (c : Constant) : c.ty.params = [] := by
  cases c <;> rfl

theorem isExact_constant_iff {c : Constant} {t : Ty} : c.ty.isExact t = true ↔
    t.kind = c.ty.kind ∧ t.name = c.ty.name ∧ t.params = [] := by
  unfold isExact
  rw [agrees_eq, params_constant]
  cases t.params with
  | nil => simp [agreeAll, @eq_comm _ c.ty.kind, @eq_comm _ c.ty.name]
  | cons p ps => simp [agreeAll]

/-- What a type without a custom rule accepts of literals. -/
theorem accepts_constant_iff {c : Constant} {t : Ty} (ht : t.acceptance.isOrdinary = true) :
    t.accepts c.ty = true ↔
      (t.acceptance.takesNull = true ∧ c.ty.kind = .null) ∨ t.kind.isDyn = true ∨
        c.ty.isExact t = true := by
  rw [accepts_eq ht, isExact_constant_iff, params_constant]
  cases t.params <;> simp [acceptAll, or_assoc]

theorem fits_null (t : Ty) (paramsFit : Bool) :
    null.fits t paramsFit = (t.isWildcard || t.admitsNull) := by
  unfold fits
  cases t.isWildcard <;> rfl

/-- How a literal other than `null` goes together with a type. -/
theorem fits_constant {c : Constant} (h : c ≠ .null) (t : Ty) (paramsFit : Bool) :
    c.ty.fits t paramsFit = (t.isWildcard ||
      if t.kind = .null then c.ty.admitsNull else t.accepts c.ty) := by
  unfold fits
  cases c with
  | null => exact absurd rfl h
  | _ => cases t.isWildcard <;> rfl

theorem overlooks_constant {c : Constant} (h : c ≠ .null) (t : Ty) :
    t.overlooks c = (t.kind == .error || (t.kind == .null && c.ty.admitsNull)) := by
  cases c with
  | null => exact absurd rfl h
  | _ => unfold overlooks; cases t.kind <;> rfl

theorem accepts_null_iff_of_fits {t : Ty} (ht : t.acceptance.isOrdinary = true)
    (h : (null.isExact t || null.fits t false) = true) :
    t.accepts null = true ↔ t.overlooks .null = false := by
  have haccepts : t.accepts null = true ↔
      t.acceptance.takesNull = true ∨ t.kind.isDyn = true ∨ null.isExact t = true :=
    (accepts_constant_iff (c := .null) ht).trans (or_congr_left (and_iff_left rfl))
  have hexact : t.kind ≠ .null → null.isExact t = false := fun hk =>
    Bool.eq_false_iff.mpr fun he => hk (isExact_constant_iff (c := .null).mp he).1
  cases hk : t.kind with
  | null =>
    rw [haccepts]
    simp only [overlooks, hk, Kind.isDyn]
    cases t.acceptance.takesNull <;> simp
  | error | struct | abstract | duration | timestamp =>
    rw [haccepts, hexact (by simp [hk])]
    simp [overlooks, hk, Kind.isDyn]
  | any | dyn | typeParam =>
    rw [haccepts]
    simp [overlooks, hk, Kind.isDyn]
  | _ =>
    rw [fits_null, hexact (by simp [hk])] at h
    have hadmits : t.accepts null = true := by
      simpa [isWildcard, admitsNull, acceptsNull, hk] using h
    simp [hadmits, overlooks, hk]

/-- **What goes together with a literal accepts it, unless it is overlooked.** -/
theorem accepts_iff_of_fits {c : Constant} {t : Ty} (ht : t.acceptance.isOrdinary = true)
    (h : (c.ty.isExact t || c.ty.fits t false) = true) :
    t.accepts c.ty = true ↔ t.overlooks c = false := by
  by_cases hnull : c = .null
  · subst hnull
    exact accepts_null_iff_of_fits ht h
  have hkind : c.ty.kind ≠ .null ∧ c.ty.kind ≠ .error := by
    cases c with
    | null => exact absurd rfl hnull
    | _ => exact ⟨Kind.noConfusion, Kind.noConfusion⟩
  have haccepts : t.accepts c.ty = true ↔ t.kind.isDyn = true ∨ c.ty.isExact t = true :=
    (accepts_constant_iff ht).trans (or_iff_right fun hn => hkind.1 hn.2)
  have hexact : t.kind ≠ c.ty.kind → c.ty.isExact t = false := fun hne =>
    Bool.eq_false_iff.mpr fun he => hne (isExact_constant_iff.mp he).1
  rw [overlooks_constant hnull]
  cases hk : t.kind with
  | error =>
    have hfalse := hexact (hk ▸ hkind.2.symm)
    simp [haccepts, hfalse, hk, Kind.isDyn]
  | null =>
    have hfalse := hexact (hk ▸ hkind.1.symm)
    have hadmits : c.ty.admitsNull = true := by
      simpa [fits_constant hnull, hfalse, isWildcard, hk] using h
    simp [haccepts, hfalse, hadmits, hk, Kind.isDyn]
  | any | dyn | typeParam => simp [haccepts, hk, Kind.isDyn]
  | _ =>
    have hfits : t.accepts c.ty = true := by
      rw [fits_constant hnull, Bool.or_eq_true] at h
      rcases h with hexact | hfits
      · exact haccepts.mpr (Or.inr hexact)
      · simpa [isWildcard, hk] using hfits
    simp [hfits]

theorem accepts_of_isDyn {t : Ty} (ht : t.acceptance.isOrdinary = true) (h : t.isDyn = true)
    (given : Ty) : t.accepts given = true := by
  rw [accepts_eq ht, show t.kind.isDyn = true from h]
  simp

theorem overlooks_of_isParam {t : Ty} (h : t.isParam = true) (c : Constant) :
    t.overlooks c = false := by
  have hk : t.kind = .typeParam := isParam_iff.mp h
  cases c <;> simp [overlooks, hk]

theorem acceptAll_of_isDyn : ∀ {ts given : List Ty}, (∀ t ∈ ts, t.acceptance.isOrdinary = true) →
    (∀ t ∈ ts, t.isDyn = true) → given.length = ts.length → acceptAll ts given = true
  | [], [], _, _, _ => rfl
  | t :: ts, g :: given, ho, hdyn, hlength => by
    obtain ⟨ht, hts⟩ := List.forall_mem_cons.mp ho
    obtain ⟨htdyn, htsdyn⟩ := List.forall_mem_cons.mp hdyn
    rw [acceptAll, accepts_of_isDyn ht htdyn, Bool.true_and]
    exact acceptAll_of_isDyn hts htsdyn (Nat.succ.inj hlength)

end Ty

/-! ## Unification with literals -/

namespace Mapping

variable {unify : Mapping → Ty → Ty → Option (Bool × Mapping)} {m m' : Mapping}

/-- Nothing is bound where a literal meets a type that is no parameter. -/
theorem unifyConcrete_constant (c : Constant) (t : Ty) :
    m.unifyConcrete unify c.ty t = some (c.ty.fits t false, m) := by
  unfold unifyConcrete Ty.fits
  split
  · rfl
  split
  · rfl
  split
  · rfl
  cases c <;> rfl

/-- **A type that unifies with a literal accepts it, unless it is overlooked**, whatever is bound
so far. -/
theorem accepts_iff_of_unifyWithin {c : Constant} {t : Ty} {d : Nat}
    (ht : t.acceptance.isOrdinary = true) (h : unifyWithin d m c.ty t = some (true, m')) :
    t.accepts c.ty = true ↔ t.overlooks c = false := by
  by_cases hparam : t.isParam = true
  · have hdyn : t.isDyn = true := by simp [Ty.isDyn, Ty.isParam_iff.mp hparam, Kind.isDyn]
    rw [Ty.accepts_of_isDyn ht hdyn, Ty.overlooks_of_isParam hparam]
    exact iff_of_true rfl rfl
  · refine Ty.accepts_iff_of_fits ht ?_
    have hconstant : c.ty.isParam = false := by cases c <;> rfl
    cases d with
    | zero => exact absurd h (by simp [unifyWithin])
    | succ d =>
      rw [unifyWithin, if_neg hparam, unifyLeft, hconstant, if_neg Bool.false_ne_true,
        unifyConcrete_constant] at h
      split at h
      · next hexact => rw [hexact, Bool.true_or]
      · next hexact =>
        have hfits := congrArg Prod.fst (Option.some.inj h)
        rw [show c.ty.fits t false = true from hfits, Bool.or_true]

/-- The same for the arguments of a call, by what one pair of them does. -/
theorem acceptAll_eq_of_unifyPairs {d : Nat} : ∀ {m : Mapping} {ts : List Ty} {cs : List Constant},
    cs.length = ts.length → (∀ t ∈ ts, t.acceptance.isOrdinary = true) →
    unifyPairs (unifyWithin d) m (cs.map Constant.ty) ts = some (true, m') →
    Ty.acceptAll ts (cs.map Constant.ty) = !(ts.zip cs).any fun p => p.1.overlooks p.2
  | _, [], [], _, _, _ => rfl
  | m, t :: ts, c :: cs, hlength, ho, h => by
    obtain ⟨ht, hts⟩ := List.forall_mem_cons.mp ho
    rw [List.map_cons, unifyPairs] at h
    obtain ⟨⟨unified, m₁⟩, hpair, hrest⟩ := Option.bind_eq_some_iff.mp h
    cases unified with
    | false => exact absurd hrest (by simp)
    | true =>
      have hhead := accepts_iff_of_unifyWithin ht hpair
      have htail := acceptAll_eq_of_unifyPairs (Nat.succ.inj hlength) hts hrest
      have heq : t.accepts c.ty = !t.overlooks c :=
        Bool.eq_iff_iff.mpr (by rw [hhead, Bool.not_eq_true'])
      rw [List.map_cons, Ty.acceptAll, htail, List.zip_cons_cons, List.any_cons, Bool.not_or, heq]

theorem acceptAll_eq_of_unifyAll {ts : List Ty} {cs : List Constant}
    (ho : ∀ t ∈ ts, t.acceptance.isOrdinary = true)
    (h : (m.unifyAll (cs.map Constant.ty) ts).isSome = true) :
    cs.length = ts.length ∧
      Ty.acceptAll ts (cs.map Constant.ty) = !(ts.zip cs).any fun p => p.1.overlooks p.2 := by
  unfold unifyAll onSuccess at h
  split at h
  · next m' hlists =>
    unfold unifyAll? unifyLists at hlists
    split at hlists
    · next hlength =>
      rw [List.length_map] at hlength
      exact ⟨hlength, acceptAll_eq_of_unifyPairs hlength ho hlists⟩
    · exact absurd hlists (by simp)
  · exact absurd h (by simp)

end Mapping

/-! ## Calls -/

namespace Overload

/-- Whether one of the arguments goes together with a formal type that does not accept it. -/
def overlooks (o : Overload) (args : List Constant) : Bool :=
  (o.args.zip args).any fun p => p.1.overlooks p.2

theorem Ordinary.acceptance {o : Overload} (ho : o.Ordinary) :
    ∀ t ∈ o.args, t.acceptance.isOrdinary = true :=
  fun t ht => (Ty.ordinary_iff.mp (ho t ht)).1

/-- A guard lets through what fits; it is left out only where everything does. -/
theorem call_guarded {o : Overload} {i : Implementation} (ho : o.Ordinary)
    (hi : o.implementation = some i) {args : List Constant}
    (hlength : args.length = o.args.length) :
    ∃ operation, o.guarded false = some operation ∧
      operation.call args = if o.fits args then i.operation.call args else none := by
  unfold guarded
  rw [hi, Option.map_some, Bool.false_or]
  by_cases hdyn : o.args.all Ty.isDyn = true
  · have hfits : o.fits args = true :=
      Ty.acceptAll_of_isDyn ho.acceptance (List.all_eq_true.mp hdyn)
        (by rw [List.length_map, hlength])
    exact ⟨i.operation, by rw [if_pos hdyn], by rw [if_pos hfits]⟩
  · exact ⟨_, by rw [if_neg hdyn], by rw [Operation.call]⟩

/-- A dispatcher has a result where an overload that fits has one. -/
theorem isSome_dispatch {os : List Overload} {o : Overload} {i : Implementation} (hmem : o ∈ os)
    (hi : o.implementation = some i) {args : List Constant} (hfits : o.fits args = true)
    (hresult : (i.operation.call args).isSome = true) : (dispatch os args).isSome = true := by
  unfold dispatch
  rw [List.findSome?_isSome_iff]
  exact ⟨o, hmem, by rw [if_pos hfits, hi]; exact hresult⟩

end Overload

/-- **Literals that unify with the types of an overload fit them, unless one is overlooked.**  If
one is, a guard gives no result; otherwise it gives the result of the implementation, and a
dispatcher has a result wherever the implementation has one. -/
theorem fits_eq_of_unifyAll (o : Overload) (ho : o.Ordinary) (args : List Constant) (m : Mapping)
    (h : (m.unifyAll (args.map Constant.ty) o.args).isSome = true) :
    o.fits args = !o.overlooks args ∧
      ∀ i, o.implementation = some i →
        (∃ operation, o.guarded false = some operation ∧
          operation.call args = if o.overlooks args then none else i.operation.call args) ∧
        (o.overlooks args = false → (i.operation.call args).isSome = true →
          ∀ os, o ∈ os → (Overload.dispatch os args).isSome = true) := by
  obtain ⟨hlength, hfits⟩ := Mapping.acceptAll_eq_of_unifyAll ho.acceptance h
  have hfits : o.fits args = !o.overlooks args := hfits
  refine ⟨hfits, fun i hi => ⟨?_, fun hnone hresult os hmem => ?_⟩⟩
  · obtain ⟨operation, hguarded, hcall⟩ := Overload.call_guarded ho hi hlength
    refine ⟨operation, hguarded, ?_⟩
    rw [hcall, hfits]
    cases o.overlooks args <;> rfl
  · exact Overload.isSome_dispatch hmem hi (by rw [hfits, hnone]; rfl) hresult

/-- Waiting until a point in time, with a note that may be missing and something to give back. -/
def waitUntil : Overload :=
  (Overload.global "wait_until" [.timestamp, .nullable .string, .param "A"] .bool).implementedBy
    ⟨"wait", .variadic fun _ => some (.bool true)⟩

/-- A missing note is let through, as the type of notes makes an exception for `null`. -/
theorem fits_eq_of_unifyAll_waitUntil :
    waitUntil.Ordinary ∧
      (Mapping.empty.unifyAll ([Constant.timestamp 5 0, .null, .int 3].map Constant.ty)
        waitUntil.args).isSome = true ∧
      waitUntil.fits [.timestamp 5 0, .null, .int 3] = true := by
  have hordinary : waitUntil.Ordinary := by decide +kernel
  have hunify : (Mapping.empty.unifyAll ([Constant.timestamp 5 0, .null, .int 3].map Constant.ty)
      waitUntil.args).isSome = true := by decide +kernel
  have hfits := (fits_eq_of_unifyAll waitUntil hordinary _ .empty hunify).1
  exact ⟨hordinary, hunify, hfits.trans (by decide +kernel)⟩

/-- A missing point in time is not: it unifies with the type of points in time, but the guard
refuses the call and the dispatcher finds no overload. -/
theorem null_refused :
    (Mapping.empty.unifyAll ([Constant.null, .null, .null].map Constant.ty)
        waitUntil.args).isSome = true ∧
      waitUntil.fits [.null, .null, .null] = false ∧
      ((waitUntil.guarded false).bind fun operation => operation.call [.null, .null, .null]) =
        none ∧
      Overload.dispatch [waitUntil] [.null, .null, .null] = none := by
  decide +kernel

end CelTyping
