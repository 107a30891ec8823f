import CelTyping.Proofs.Declaration.LiteralArguments

/-!
# Calls by id and calls by name

An evaluator finds an implementation under the id of its overload, and the implementations of a
function together under the name of the function.  Both ways decide for themselves whether an
implementation may run: the entry point of an overload by its guard, the dispatcher by looking for
overloads that fit the arguments.

## By id and by name

One expects a call by name to give the first result that the calls by id give.  It does
(`named_entry_agrees`), unless a call by id strays: the guard of an overload is left out where its
types accept everything, and with it goes the look at the number of arguments.  An implementation
that takes any number of them then has a result under the id and none under the name
(`stray_call`).

## The order of overloads

A dispatcher takes the first overload that fits and has a result.  Overloads of one call style that
do not overlap never fit the same arguments, as long as `null` is not among these, so their order
makes no difference (`dispatch_unambiguous`).  The reason is that a formal type which accepts a
literal is dynamic or equal to the type of the literal, and of two such types one accepts the other
(`Ty.accepts_or_accepts`).
-/

namespace CelTyping

/-! ## Calls by id -/

namespace Overload

/-- What the implementation of an overload computes, whether or not the arguments fit. -/
def attempt (o : Overload) (args : List Constant) : Option Constant :=
  o.implementation.bind fun i => i.operation.call args

/-- What a call of an overload by its id gives. -/
def callById (o : Overload) (args : List Constant) : Option Constant :=
  (o.entryPoint? false).bind fun e => e.operation.call args

/-- Whether a call of an overload by its id has a result though the arguments do not fit. -/
def strays (o : Overload) (args : List Constant) : Bool :=
  o.args.all Ty.isDyn && !o.fits args && (o.attempt args).isSome

/-- A guard lets through what fits, and everything where it is left out. -/
theorem callById_eq (o : Overload) (args : List Constant) :
    o.callById args = if o.fits args || o.args.all Ty.isDyn then o.attempt args else none := by
  unfold callById entryPoint? guarded attempt
  cases o.implementation with
  | none => simp
  | some i =>
    cases o.args.all Ty.isDyn with
    | true => simp
    | false =>
      simp only [Bool.or_false, Option.map_some, Option.bind_some]
      rfl

/-- **A dispatcher gives the first result by id that does not stray.** -/
theorem dispatch_eq (os : List Overload) (args : List Constant) :
    dispatch os args = os.findSome? fun o => if o.strays args then none else o.callById args := by
  have hone : ∀ o : Overload, (if o.fits args then o.attempt args else none) =
      if o.strays args then none else o.callById args := by
    intro o
    rw [callById_eq, strays]
    cases o.fits args <;> cases o.args.all Ty.isDyn <;> cases o.attempt args <;> rfl
  exact congrArg (fun answer => os.findSome? answer) (funext hone)

/-- Without custom rules of acceptance, what strays is a call with the wrong number of
arguments. -/
theorem length_ne_of_strays {o : Overload} (ho : o.Ordinary) {args : List Constant}
    (h : o.strays args = true) : args.length ≠ o.args.length := by
  intro hlength
  unfold strays at h
  rw [Bool.and_eq_true, Bool.and_eq_true, Bool.not_eq_true'] at h
  have hfits : o.fits args = true := Ty.acceptAll_of_isDyn ho.acceptance
    (List.all_eq_true.mp h.1.1) (by rw [List.length_map, hlength])
  exact Bool.false_ne_true (h.1.2.symm.trans hfits)

end Overload

/-! ## Calls by name -/

namespace FunctionDecl

/-- The entry point under the name of a function, which is the last one. -/
def named? (f : FunctionDecl) : Option EntryPoint := f.entryPoints.toOption.bind List.getLast?

/-- What a call of a function by its name gives. -/
def callByName (f : FunctionDecl) (args : List Constant) : Option Constant :=
  f.named?.bind fun e => e.operation.call args

theorem findSome?_overloadEntries {f : FunctionDecl} (hguards : f.guardsDisabled = false)
    (args : List Constant) :
    (f.overloadEntries.findSome? fun e => e.operation.call args) =
      f.overloads.findSome? fun o => o.callById args := by
  unfold overloadEntries
  rw [hguards, ← List.head?_filterMap, List.filterMap_filterMap, List.head?_filterMap]
  rfl

theorem overloadEntries_ne_nil {f : FunctionDecl}
    (h : ∃ o ∈ f.overloads, o.hasImplementation = true) : f.overloadEntries ≠ [] := by
  obtain ⟨o, ho, himpl⟩ := h
  obtain ⟨i, hi⟩ := Option.isSome_iff_exists.mp himpl
  intro hnil
  have hnone := List.filterMap_eq_nil_iff.mp hnil o ho
  rw [Overload.entryPoint?, Overload.guarded, hi] at hnone
  exact absurd hnone (by simp)

/-- The dispatcher of a function. -/
def dispatcher (f : FunctionDecl) : EntryPoint :=
  ⟨f.name, .variadic (Overload.dispatch f.overloads), f.anyNonStrict⟩

/-- **The entry points of a function without a shared implementation**: none, one overload under
its id and under the name of the function, or several with a dispatcher at the end. -/
theorem entryPoints_cases {f : FunctionDecl} (h : f.singleton = none) :
    (f.overloadEntries = [] ∧ f.entryPoints = .ok []) ∨
    (∃ only, f.overloadEntries = [only] ∧ f.entryPoints = .ok
      (if only.name = f.name then [only] else [only, { only with name := f.name }])) ∨
    (1 < f.overloadEntries.length ∧
      f.entryPoints = .ok (f.overloadEntries ++ [f.dispatcher])) := by
  unfold entryPoints
  rw [h]
  rcases hentries : f.overloadEntries with _ | ⟨only, _ | ⟨second, rest⟩⟩
  · exact Or.inl ⟨rfl, rfl⟩
  · exact Or.inr (Or.inl ⟨only, rfl, rfl⟩)
  · exact Or.inr (Or.inr ⟨by simp, rfl⟩)

end FunctionDecl

/-- **A call by name gives the first result by id**, in the order of declaration, if only one
overload has an implementation or no call by id strays.  Of several implementations it always gives
the first result by id that does not stray, and without custom rules of acceptance only a call with
the wrong number of arguments strays. -/
theorem named_entry_agrees (f : FunctionDecl) (hguards : f.guardsDisabled = false)
    (hshared : f.singleton = none) (himpl : ∃ o ∈ f.overloads, o.hasImplementation = true)
    (args : List Constant) :
    ∃ entries named, f.entryPoints = .ok entries ∧ entries.getLast? = some named ∧
      named.name = f.name ∧ (entries = f.overloadEntries ∨ entries = f.overloadEntries ++ [named]) ∧
      (f.overloadEntries.length = 1 ∨ (∀ o ∈ f.overloads, o.strays args = false) →
        named.operation.call args =
          f.overloadEntries.findSome? fun e => e.operation.call args) ∧
      (1 < f.overloadEntries.length → named.operation.call args =
        f.overloads.findSome? fun o => if o.strays args then none else o.callById args) ∧
      ∀ o ∈ f.overloads, o.Ordinary → o.strays args = true → args.length ≠ o.args.length := by
  have hstrays : ∀ o ∈ f.overloads, o.Ordinary → o.strays args = true →
      args.length ≠ o.args.length := fun o _ ho => Overload.length_ne_of_strays ho
  rcases FunctionDecl.entryPoints_cases hshared with ⟨hnil, -⟩ | ⟨only, honly, hok⟩ | ⟨hmany, hok⟩
  · exact absurd hnil (FunctionDecl.overloadEntries_ne_nil himpl)
  · by_cases hname : only.name = f.name
    · rw [if_pos hname] at hok
      refine ⟨_, only, hok, rfl, hname, Or.inl honly.symm, fun _ => ?_, fun h => ?_, hstrays⟩
      · rw [honly, List.findSome?_singleton]
      · exact absurd h (by simp [honly])
    · rw [if_neg hname] at hok
      refine ⟨_, { only with name := f.name }, hok, rfl, rfl, Or.inr ?_, fun _ => ?_, fun h => ?_,
        hstrays⟩
      · rw [honly]
        rfl
      · rw [honly, List.findSome?_singleton]
      · exact absurd h (by simp [honly])
  · have hcall : f.dispatcher.operation.call args =
        f.overloads.findSome? fun o => if o.strays args then none else o.callById args := by
      rw [← Overload.dispatch_eq]
      rfl
    refine ⟨_, f.dispatcher, hok, List.getLast?_concat, rfl, Or.inr rfl, fun h => ?_,
      fun _ => hcall, hstrays⟩
    have hnone := h.resolve_left (Nat.ne_of_gt hmany)
    rw [hcall, FunctionDecl.findSome?_overloadEntries hguards, ← List.head?_filterMap,
      ← List.head?_filterMap]
    refine congrArg List.head? (List.filterMap_congr fun o ho => ?_)
    rw [hnone o ho, if_neg Bool.false_ne_true]

/-- Counting arguments and adding integers: the first overload takes one argument of any type, its
implementation takes any number of them. -/
def tally : FunctionDecl :=
  { FunctionDecl.ofName "tally" with
    overloads :=
      [(Overload.global "tally_any" [.dyn] .int).implementedBy
          ⟨"count", .variadic fun args => some (.int (Int64.ofNat args.length))⟩,
        .global "tally_none" [] .bool,
        (Overload.global "tally_ints" [.int, .int] .int).implementedBy
          ⟨"first", .binary fun a _ => some a⟩] }

/-- With one argument no call strays, and calls by id and by name agree. -/
theorem named_entry_agrees_tally :
    (∃ o ∈ tally.overloads, o.hasImplementation = true) ∧
    (∀ o ∈ tally.overloads, o.strays [.string "a"] = false) ∧
    ∃ entries named, tally.entryPoints = .ok entries ∧ entries.getLast? = some named ∧
      named.name = "tally" ∧
      named.operation.call [.string "a"] =
        tally.overloadEntries.findSome? fun e => e.operation.call [.string "a"] := by
  have himpl : ∃ o ∈ tally.overloads, o.hasImplementation = true := by decide
  have hstrays : ∀ o ∈ tally.overloads, o.strays [.string "a"] = false := by decide
  obtain ⟨entries, named, hok, hlast, hname, -, hagrees, -⟩ :=
    named_entry_agrees tally rfl rfl himpl [.string "a"]
  exact ⟨himpl, hstrays, entries, named, hok, hlast, hname, hagrees (Or.inr hstrays)⟩

/-- **A call by id may stray**: with two arguments of which one is no integer, `tally_any` has a
result under its id, though it is declared for one argument, and there is none under the name. -/
theorem stray_call :
    tally.guardsDisabled = false ∧ tally.singleton = none ∧
    (∃ o ∈ tally.overloads, o.hasImplementation = true) ∧
    (tally.overloadEntries.findSome? fun e => e.operation.call [.int 1, .string "a"]) =
      some (.int 2) ∧
    tally.callByName [.int 1, .string "a"] = none := by
  decide

/-! ## Overloads that fit the same arguments -/

namespace Ty

/-- **Of two types that accept a literal one accepts the other**, if the literal is not `null`. -/
theorem accepts_or_accepts {a b : Ty} (ha : a.acceptance.isOrdinary = true)
    (hb : b.acceptance.isOrdinary = true) {c : Constant} (hc : c ≠ .null)
    (hac : a.accepts c.ty = true) (hbc : b.accepts c.ty = true) :
    (a.accepts b || b.accepts a) = true := by
  have hkind : c.ty.kind ≠ .null := by
    cases c with
    | null => exact absurd rfl hc
    | _ => exact Kind.noConfusion
  have hcases : ∀ {t : Ty}, t.acceptance.isOrdinary = true → t.accepts c.ty = true →
      t.isDyn = true ∨ c.ty.isExact t = true := fun ht h =>
    ((accepts_constant_iff ht).mp h).resolve_left fun hnull => hkind hnull.2
  rw [Bool.or_eq_true]
  rcases hcases ha hac with hdyn | hexact
  · exact Or.inl (accepts_of_isDyn ha hdyn b)
  rcases hcases hb hbc with hdyn | hexact'
  · exact Or.inr (accepts_of_isDyn hb hdyn a)
  · obtain ⟨hk, hn, hp⟩ := isExact_constant_iff.mp hexact
    obtain ⟨hk', hn', hp'⟩ := isExact_constant_iff.mp hexact'
    refine Or.inl ?_
    rw [accepts_eq ha, hk, hk', hn, hn', hp, hp']
    simp [acceptAll]

end Ty

namespace Overload

theorem eitherAccepts_of_acceptAll : ∀ {as bs : List Ty} {args : List Constant},
    (∀ t ∈ as, t.acceptance.isOrdinary = true) → (∀ t ∈ bs, t.acceptance.isOrdinary = true) →
    Constant.null ∉ args → Ty.acceptAll as (args.map Constant.ty) = true →
    Ty.acceptAll bs (args.map Constant.ty) = true → eitherAccepts as bs = true
  | [], [], _, _, _, _, _, _ => rfl
  | _ :: _, _, [], _, _, _, h, _ => absurd h (by simp [Ty.acceptAll])
  | [], _ :: _, [], _, _, _, _, h => absurd h (by simp [Ty.acceptAll])
  | [], _ :: _, _ :: _, _, _, _, h, _ => absurd h (by simp [Ty.acceptAll])
  | _ :: _, [], _ :: _, _, _, _, _, h => absurd h (by simp [Ty.acceptAll])
  | a :: as, b :: bs, c :: args, has, hbs, hnull, ha, hb => by
    obtain ⟨hao, has⟩ := List.forall_mem_cons.mp has
    obtain ⟨hbo, hbs⟩ := List.forall_mem_cons.mp hbs
    rw [List.mem_cons, not_or] at hnull
    rw [List.map_cons, Ty.acceptAll, Bool.and_eq_true] at ha hb
    rw [eitherAccepts, Bool.and_eq_true]
    exact ⟨Ty.accepts_or_accepts hao hbo (Ne.symm hnull.1) ha.1 hb.1,
      eitherAccepts_of_acceptAll has hbs hnull.2 ha.2 hb.2⟩

/-- **Overloads of one call style that fit the same arguments overlap.** -/
theorem overlaps_of_fits {a b : Overload} (ha : a.Ordinary) (hb : b.Ordinary)
    (hstyle : a.isMember = b.isMember) {args : List Constant} (hnull : Constant.null ∉ args)
    (hfa : a.fits args = true) (hfb : b.fits args = true) : a.overlaps b = true := by
  unfold overlaps
  rw [Bool.and_eq_true, beq_iff_eq]
  exact ⟨hstyle, eitherAccepts_of_acceptAll ha.acceptance hb.acceptance hnull hfa hfb⟩

/-- A dispatcher looks at the overloads that fit. -/
theorem dispatch_eq_findSome?_filter (os : List Overload) (args : List Constant) :
    dispatch os args = (os.filter fun o => o.fits args).findSome? fun o => o.attempt args := by
  rw [← List.head?_filterMap, List.filterMap_filter, List.head?_filterMap]
  rfl

theorem length_filter_fits_le {os : List Overload} {style : Bool}
    (hstyle : ∀ o ∈ os, o.isMember = style) (hos : ∀ o ∈ os, o.Ordinary)
    (hapart : os.Pairwise fun a b => a.overlaps b = false) {args : List Constant}
    (hnull : Constant.null ∉ args) : (os.filter fun o => o.fits args).length ≤ 1 := by
  have hfiltered := hapart.filter fun o => o.fits args
  rcases hfits : os.filter fun o => o.fits args with _ | ⟨a, _ | ⟨b, rest⟩⟩
  · simp [hfits]
  · simp [hfits]
  · rw [hfits] at hfiltered
    have hmem : ∀ {o}, o ∈ a :: b :: rest → o ∈ os ∧ o.fits args = true := fun ho =>
      List.mem_filter.mp (hfits ▸ ho)
    obtain ⟨ha, hfa⟩ := hmem List.mem_cons_self
    obtain ⟨hb, hfb⟩ := hmem (List.mem_cons_of_mem a List.mem_cons_self)
    have hsep := (List.pairwise_cons.mp hfiltered).1 b List.mem_cons_self
    have hover := overlaps_of_fits (hos a ha) (hos b hb) ((hstyle a ha).trans (hstyle b hb).symm)
      hnull hfa hfb
    exact absurd (hsep.symm.trans hover) Bool.false_ne_true

end Overload

/-! ## The order of overloads -/

namespace FunctionDecl

/-- Where there are several implementations, a call by name is one of the dispatcher. -/
theorem callByName_of_several {f : FunctionDecl} (h : 1 < f.overloadEntries.length)
    (args : List Constant) : f.callByName args =
      if f.singleton.isSome then none else Overload.dispatch f.overloads args := by
  unfold callByName named? entryPoints
  rcases hentries : f.overloadEntries with _ | ⟨first, _ | ⟨second, rest⟩⟩
  · exact absurd h (by simp [hentries])
  · exact absurd h (by simp [hentries])
  · cases f.singleton with
    | some shared => rfl
    | none =>
      show ((first :: second :: rest ++ [f.dispatcher]).getLast?.bind fun e =>
        e.operation.call args) = _
      rw [List.getLast?_concat]
      rfl

/-- Where there is at most one, it is a call of this one, or of the shared implementation. -/
theorem callByName_of_few {f : FunctionDecl} (h : f.overloadEntries.length ≤ 1)
    (args : List Constant) : f.callByName args =
      f.overloadEntries.head?.elim (f.singleton.bind fun i => i.operation.call args) fun only =>
        if f.singleton.isSome then none else only.operation.call args := by
  unfold callByName named? entryPoints
  rcases hentries : f.overloadEntries with _ | ⟨only, _ | ⟨second, rest⟩⟩
  · cases f.singleton <;> rfl
  · cases f.singleton with
    | some shared => rfl
    | none => by_cases hname : only.name = f.name <;> simp [hname, Except.toOption]
  · exact absurd h (by simp [hentries])

/-- The order of the overloads makes a difference to a call by name only where it does to the
dispatcher. -/
theorem callByName_eq_of_perm (f : FunctionDecl) {os os' : List Overload} (h : os'.Perm os)
    {args : List Constant} (hdispatch : Overload.dispatch os' args = Overload.dispatch os args) :
    { f with overloads := os' }.callByName args = { f with overloads := os }.callByName args := by
  have hentries : { f with overloads := os' }.overloadEntries.Perm
      { f with overloads := os }.overloadEntries := h.filterMap _
  rcases Nat.lt_or_ge 1 { f with overloads := os }.overloadEntries.length with hmany | hle
  · rw [callByName_of_several hmany, callByName_of_several (hentries.length_eq ▸ hmany), hdispatch]
  · rw [callByName_of_few hle, callByName_of_few (hentries.length_eq ▸ hle),
      eq_of_perm_of_length_le_one hentries hle]

end FunctionDecl

/-- **Runtime dispatch is unambiguous**: of overloads of one call style that do not overlap, without
custom rules of acceptance, at most one fits arguments among which there is no `null`.  So neither
what a dispatcher gives on such arguments nor what a call by name gives depends on the order of the
overloads. -/
theorem dispatch_unambiguous (os : List Overload) (style : Bool)
    (hstyle : ∀ o ∈ os, o.isMember = style) (hos : ∀ o ∈ os, o.Ordinary)
    (hapart : os.Pairwise fun a b => a.overlaps b = false) (args : List Constant)
    (hnull : Constant.null ∉ args) :
    (os.filter fun o => o.fits args).length ≤ 1 ∧
      ∀ os' : List Overload, os'.Perm os →
        Overload.dispatch os' args = Overload.dispatch os args ∧
        ∀ f : FunctionDecl, { f with overloads := os' }.callByName args =
          { f with overloads := os }.callByName args := by
  have hle := Overload.length_filter_fits_le hstyle hos hapart hnull
  refine ⟨hle, fun os' hperm => ?_⟩
  have hdispatch : Overload.dispatch os' args = Overload.dispatch os args := by
    rw [Overload.dispatch_eq_findSome?_filter, Overload.dispatch_eq_findSome?_filter,
      eq_of_perm_of_length_le_one (hperm.filter _) hle]
  exact ⟨hdispatch, fun f => f.callByName_eq_of_perm hperm hdispatch⟩

/-- Joining texts and adding numbers, with a separator or an offset of any type. -/
def joins : List Overload :=
  [(Overload.global "join_text" [.nullable .string, .param "A"] .string).implementedBy
      ⟨"first", .binary fun a _ => some a⟩,
    (Overload.global "join_int" [.int, .dyn] .int).implementedBy
      ⟨"second", .binary fun _ b => some b⟩,
    .global "join_lists" [.list .dyn, .list .dyn] (.list .dyn)]

/-- A text and a number are for the first overload, whatever the order.  Two of the overloads accept
anything for the second argument. -/
theorem dispatch_unambiguous_joins :
    (∀ o ∈ joins, o.isMember = false) ∧ (∀ o ∈ joins, o.Ordinary) ∧
    joins.Pairwise (fun a b => a.overlaps b = false) ∧
    (joins.filter fun o => o.fits [.string "a", .int 3]).length ≤ 1 ∧
    Overload.dispatch joins [.string "a", .int 3] = some (.string "a") ∧
    Overload.dispatch joins.reverse [.string "a", .int 3] = some (.string "a") := by
  have hstyle : ∀ o ∈ joins, o.isMember = false := by decide
  have hordinary : ∀ o ∈ joins, o.Ordinary := by decide
  have hapart : joins.Pairwise fun a b => a.overlaps b = false := by decide
  obtain ⟨hone, horder⟩ := dispatch_unambiguous joins false hstyle hordinary hapart
    [.string "a", .int 3] (by decide)
  have hcall : Overload.dispatch joins [.string "a", .int 3] = some (.string "a") := by decide
  exact ⟨hstyle, hordinary, hapart, hone, hcall,
    (horder _ (List.reverse_perm joins)).1.trans hcall⟩

/-- With `null` among the arguments two overloads that do not overlap may fit: a wrapped text and a
wrapped integer both accept it. -/
example : (Overload.global "f_text" [.nullable .string] .bool).overlaps
      (.global "f_int" [.nullable .int] .bool) = false ∧
    (Overload.global "f_text" [.nullable .string] .bool).fits [.null] = true ∧
    (Overload.global "f_int" [.nullable .int] .bool).fits [.null] = true := by
  decide

end CelTyping
