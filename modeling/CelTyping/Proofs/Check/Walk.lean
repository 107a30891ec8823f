import CelTyping.Proofs.Check.Operations

/-!
# What the walk over an expression keeps

A check against an environment that a policy covers keeps to the policy (`checks`): it goes
through sound states only, the node it gives back has a type, and, unless errors are tolerated, so
do all nodes below it, and those of them that refer to something have a reference.

The proof is one induction over the tree, with a lemma for every sort of node.  At a node it says
what was filled in before, by the nodes below and by the steps so far, and the places that the node
needs are among these.

* `sound_of_early`, `sound_of_mem_states`: every state of a check is sound.
* `sorted_states`: the numbers of type variables never go back.
* `admits_types`: the types in the results of a check are admitted.
* `filled_of_needs`: what the resulting tree needs is filled, when no errors are tolerated.
-/

namespace CelTyping

/-- A place that has to be filled for a node or for a node below it. -/
def Expr.Needs (e : Expr) (slot : Slot) : Prop :=
  ∃ n, e.Below n ∧ (slot = .type n.id ∨ (n.refers = true ∧ slot = .reference n.id))

namespace Policy

variable {p : Policy} {K : Slot → Prop}

/-- The places that are filled once a node has been checked. -/
def Learns (p : Policy) (e : Expr) (slot : Slot) : Prop :=
  slot = .type e.id ∨ (¬ p.Tolerant ∧ e.Needs slot)

/-- What is filled once a node has been checked was filled for the node itself or for one right
below it. -/
theorem Learns.cases {e : Expr} {slot : Slot} (h : p.Learns e slot) :
    slot = .type e.id ∨ (¬ p.Tolerant ∧ e.refers = true ∧ slot = .reference e.id) ∨
      ¬ p.Tolerant ∧ ∃ c ∈ e.children, p.Learns c slot := by
  rcases h with h | ⟨hstrict, n, hn, hslot⟩
  · exact Or.inl h
  · rcases Expr.below_iff.mp hn with rfl | ⟨c, hc, hcn⟩
    · rcases hslot with hslot | ⟨hrefers, hslot⟩
      · exact Or.inl hslot
      · exact Or.inr (Or.inl ⟨hstrict, hrefers, hslot⟩)
    · exact Or.inr (Or.inr ⟨hstrict, c, hc, Or.inr ⟨hstrict, n, hcn, hslot⟩⟩)

/-- A node that refers to something, has been recorded and whose nodes below have been checked. -/
theorem Learns.of_records {e : Expr} {slot : Slot} {P : Prop} (h : p.Learns e slot)
    (hchildren : ¬ p.Tolerant → ∀ c ∈ e.children, p.Learns c slot → P) :
    P ∨ p.Records e slot := by
  rcases h.cases with h | ⟨hstrict, -, h⟩ | ⟨hstrict, c, hc, h⟩
  · exact Or.inr (Or.inl h)
  · exact Or.inr (Or.inr ⟨hstrict, h⟩)
  · exact Or.inl (hchildren hstrict c hc h)

/-- A node that refers to nothing, has a type and whose nodes below have been checked. -/
theorem Learns.of_type {e : Expr} {slot : Slot} {P : Prop} (h : p.Learns e slot)
    (hrefers : e.refers = false) (hchildren : ∀ c ∈ e.children, p.Learns c slot → P) :
    P ∨ slot = .type e.id := by
  rcases h.cases with h | ⟨-, htrue, -⟩ | ⟨-, c, hc, h⟩
  · exact Or.inr h
  · rw [hrefers] at htrue
    exact absurd htrue (by simp)
  · exact Or.inl (hchildren c hc h)

theorem learns_type (e : Expr) : p.Learns e (.type e.id) := Or.inl rfl

/-- What was filled on the way need not be remembered. -/
theorem Fills.forget {K' : Slot → Prop} {x : Tracing Expr}
    (h : p.Fills K' x (fun _ => True) fun e' slot => K' slot ∨ p.Learns e' slot)
    (hK : ∀ slot, K slot → K' slot) :
    p.Fills K' x (fun _ => True) fun e' slot => K slot ∨ p.Learns e' slot :=
  h.mono (fun _ h => h) fun _ _ _ hslot => hslot.imp_left (hK _)

/-- A check of a node keeps to the policy and fills what the node needs. -/
def Checks (p : Policy) (e : Expr) : Prop :=
  ∀ env K, p.Covers env → p.Fills K (Checking.checkExpr env e) (fun _ => True)
    fun e' slot => K slot ∨ p.Learns e' slot

/-! ## Lists of nodes -/

section

variable {env : Env} (henv : p.Covers env)

include henv

theorem fills_checkAll : ∀ {es : List Expr}, (∀ e ∈ es, p.Checks e) → ∀ K,
    p.Fills K (Checking.checkAll env es) (fun _ => True)
      fun es' slot => K slot ∨ ∃ e ∈ es', p.Learns e slot
  | [], _, K => by
    rw [Checking.checkAll]
    exact fills_pure trivial (by simp)
  | e :: rest, hes, K => by
    obtain ⟨he, hrest⟩ := List.forall_mem_cons.mp hes
    rw [Checking.checkAll]
    refine (he env K henv).bind fun e' _ => (fills_checkAll hrest _).bind fun rest' _ =>
      fills_pure trivial ?_
    rintro slot (hslot | ⟨x, hx, hslot⟩)
    · exact Or.inl (Or.inl hslot)
    · rcases List.mem_cons.mp hx with rfl | hx
      · exact Or.inl (Or.inr hslot)
      · exact Or.inr ⟨x, hx, hslot⟩

theorem fills_checkElements {optionalIndices : List UInt64} : ∀ {es : List Expr},
    (∀ e ∈ es, p.Checks e) → ∀ K index element, (∀ t ∈ element, p.Admits t) →
    p.Fills K (Checking.checkElements env optionalIndices index element es)
      (fun r => ∀ t ∈ r.2, p.Admits t) fun r slot => K slot ∨ ∃ e ∈ r.1, p.Learns e slot
  | [], _, K, index, element, helement => by
    rw [Checking.checkElements]
    exact fills_pure helement (by simp)
  | e :: rest, hes, K, index, element, helement => by
    obtain ⟨he, hrest⟩ := List.forall_mem_cons.mp hes
    rw [Checking.checkElements]
    refine (he env K henv).bind fun e' _ => (fills_entryType (Or.inr (learns_type e')) _).bind
      fun t ht => (keeps_joinTypes env _ helement ht).bind_fills fun u hu =>
      (fills_checkElements hrest _ _ _ (by simpa using hu)).bind fun r hr => fills_pure hr ?_
    rintro slot (hslot | ⟨x, hx, hslot⟩)
    · exact Or.inl (Or.inl hslot)
    · rcases List.mem_cons.mp hx with rfl | hx
      · exact Or.inl (Or.inr hslot)
      · exact Or.inr ⟨x, hx, hslot⟩

theorem fills_checkEntries : ∀ {entries : List MapEntry},
    (∀ e ∈ entries, p.Checks e.key ∧ p.Checks e.value) → ∀ K types,
    (∀ q ∈ types, p.Admits q.1 ∧ p.Admits q.2) →
    p.Fills K (Checking.checkEntries env types entries)
      (fun r => ∀ q ∈ r.2, p.Admits q.1 ∧ p.Admits q.2)
      fun r slot => K slot ∨ ∃ e ∈ r.1, p.Learns e.key slot ∨ p.Learns e.value slot
  | [], _, K, types, htypes => by
    rw [Checking.checkEntries]
    exact fills_pure htypes (by simp)
  | ⟨id, key, value, optional⟩ :: rest, hes, K, types, htypes => by
    obtain ⟨⟨hkey, hvalue⟩, hrest⟩ := List.forall_mem_cons.mp hes
    have hfst : ∀ t ∈ types.map Prod.fst, p.Admits t := by
      intro t ht
      obtain ⟨q, hq, rfl⟩ := Option.map_eq_some_iff.mp ht
      exact (htypes q hq).1
    have hsnd : ∀ t ∈ types.map Prod.snd, p.Admits t := by
      intro t ht
      obtain ⟨q, hq, rfl⟩ := Option.map_eq_some_iff.mp ht
      exact (htypes q hq).2
    rw [Checking.checkEntries]
    refine (hkey env K henv).bind fun key' _ => (fills_typeOf (Or.inr (learns_type key'))).bind
      fun t ht => (keeps_joinTypes env _ hfst ht).bind_fills fun keyType hkeyType =>
      (hvalue env _ henv).bind fun value' _ =>
      (fills_entryType (Or.inr (learns_type value')) _).bind fun u hu =>
      (keeps_joinTypes env _ hsnd hu).bind_fills fun valueType hvalueType =>
      (fills_checkEntries hrest _ _ ?_).bind fun r hr => fills_pure hr ?_
    · intro q hq
      obtain rfl := Option.some.inj hq
      exact ⟨hkeyType, hvalueType⟩
    · rintro slot (hslot | ⟨x, hx, hslot⟩)
      · exact Or.inl (Or.inl (Or.inl hslot))
      · rcases List.mem_cons.mp hx with rfl | hx
        · rcases hslot with hslot | hslot
          · exact Or.inl (Or.inl (Or.inr hslot))
          · exact Or.inl (Or.inr hslot)
        · exact Or.inr ⟨x, hx, hslot⟩

theorem fills_checkFields {message : String} {target : Ty} (htarget : p.Admits target) :
    ∀ {fields : List FieldInit}, (∀ f ∈ fields, p.Checks f.value) → ∀ K,
    p.Fills K (Checking.checkFields env message target fields) (fun _ => True)
      fun r slot => K slot ∨ ∃ f ∈ r, p.Learns f.value slot
  | [], _, K => by
    rw [Checking.checkFields]
    exact fills_pure trivial (by simp)
  | ⟨id, field, value, optional⟩ :: rest, hfs, K => by
    obtain ⟨hvalue, hrest⟩ := List.forall_mem_cons.mp hfs
    rw [Checking.checkFields]
    refine (hvalue env K henv).bind fun value' _ =>
      (fills_checkInit henv (Or.inr (learns_type value')) message htarget).bind fun _ _ =>
      (fills_checkFields htarget hrest _).bind fun r _ => fills_pure trivial ?_
    rintro slot (hslot | ⟨x, hx, hslot⟩)
    · exact Or.inl (Or.inl hslot)
    · rcases List.mem_cons.mp hx with rfl | hx
      · exact Or.inl (Or.inr hslot)
      · exact Or.inr ⟨x, hx, hslot⟩

/-- The operand of an optional selection is checked, or what is wrong with the selection is
given back. -/
theorem fills_checkOptionalSelect (id : NodeId) {args : List Expr} (hargs : ∀ a ∈ args, p.Checks a)
    (K : Slot → Prop) : p.Fills K (Checking.checkOptionalSelect env id args)
      (fun r => ∀ t, r.2 = .ok t → p.Admits t)
      fun r slot => K slot ∨ ((∃ t, r.2 = .ok t) ∧ ∃ e ∈ r.1.eraseIdx 1, p.Learns e slot) := by
  unfold Checking.checkOptionalSelect
  split
  · refine (hargs _ List.mem_cons_self env K henv).bind fun operand _ =>
      (fills_selectField henv id (Or.inr (learns_type operand)) _ true).bind fun t ht =>
      fills_pure (fun u hu => Except.ok.inj hu ▸ ht) ?_
    rintro slot (hslot | ⟨-, x, hx, hslot⟩)
    · exact Or.inl hslot
    · obtain rfl : x = operand := by simpa using hx
      exact Or.inr hslot
  · exact fills_pure (by simp) (by simp)
  · exact fills_pure (by simp) (by simp)

end

/-! ## Nodes -/

/-- A call of a known function, once what is below it has been checked. -/
theorem fills_typeCall_learns (env : Env) (id : NodeId) (function : String) (target : Option Expr)
    {args : List Expr} {f : FunctionDecl} (hf : ∀ o ∈ f.overloads, p.Supplies o)
    (hbelow : ∀ e ∈ target.toList ++ args, ∀ slot, p.Learns e slot → K slot) :
    p.Fills K (Checking.typeCall env (.call id function target args) f (target.map Expr.id)
        (args.map Expr.id)) (fun _ => True) fun e' slot => K slot ∨ p.Learns e' slot := by
  refine (fills_typeCall env _ hf ?_).mono (fun _ _ => trivial) ?_
  · intro i hi
    rw [List.mem_append, Option.mem_toList, Option.map_eq_some_iff, List.mem_map] at hi
    rcases hi with ⟨e, he, rfl⟩ | ⟨e, he, rfl⟩
    · exact hbelow e (List.mem_append_left _ (Option.mem_toList.mpr he)) _ (learns_type e)
    · exact hbelow e (List.mem_append_right _ he) _ (learns_type e)
  · rintro e' slot rfl (hslot | hslot)
    · exact Or.inl hslot
    · refine hslot.of_records fun _ c hc h => hbelow c ?_ slot h
      rw [Expr.children] at hc
      split at hc
      · exact List.mem_append_right _ (List.mem_of_mem_eraseIdx hc)
      · exact hc

/-- A call of an unknown function. -/
theorem fills_undeclared_learns (env : Env) (e : Expr) (id : NodeId) (name : String) :
    p.Fills K
      (do
        Checking.setType e .error
        Checking.reportUndeclared env id name
        return e)
      (fun _ => True) fun e' slot => K slot ∨ p.Learns e' slot := by
  refine (fills_undeclared env e id name).mono (fun _ _ => trivial) ?_
  rintro e' slot ⟨-, htolerant⟩ (hslot | hslot)
  · exact Or.inl hslot
  · exact hslot.cases.elim Or.inr fun h => h.elim (fun h => absurd htolerant h.1)
      fun h => absurd htolerant h.1

theorem fills_resolveIdent_learns (e : Expr) {v : Variable} (hv : p.Admits v.ty) :
    p.Fills K (Checking.resolveIdent e v) (fun _ => True)
      fun e' slot => K slot ∨ p.Learns e' slot := by
  refine (fills_resolveIdent e hv).mono (fun _ _ => trivial) ?_
  rintro e' slot rfl (hslot | hslot)
  · exact Or.inl hslot
  · exact hslot.of_records fun _ c hc => absurd hc (by simp [Expr.children])

theorem checks_unset (id : NodeId) : p.Checks (.unset id) := by
  intro env K henv
  rw [Checking.checkExpr]
  refine (keeps_report _ _).bind_fills fun _ htolerant =>
    (fills_setType _ (p.error htolerant)).bind fun _ _ => fills_pure trivial ?_
  rintro slot (hslot | hslot)
  · exact Or.inl hslot
  · exact hslot.of_type rfl (by simp [Expr.children])

theorem checks_const (id : NodeId) (value : Constant) : p.Checks (.const id value) := by
  intro env K henv
  rw [Checking.checkExpr]
  refine (fills_setType _ (p.constant value)).bind fun _ _ => fills_pure trivial ?_
  rintro slot (hslot | hslot)
  · exact Or.inl hslot
  · exact hslot.of_type rfl (by simp [Expr.children])

theorem checks_ident (id : NodeId) (name : String) : p.Checks (.ident id name) := by
  intro env K henv
  rw [Checking.checkExpr]
  refine (keeps_lookupIdent henv name).bind_fills fun v hv => ?_
  rcases v with _ | v
  · exact fills_undeclared_learns env _ _ _
  · exact fills_resolveIdent_learns _ (hv v rfl)

theorem checks_select (id : NodeId) {operand : Expr} (field : String) (testOnly optional : Bool)
    (hoperand : p.Checks operand) : p.Checks (.select id operand field testOnly optional) := by
  intro env K henv
  rw [Checking.checkExpr]
  refine (keeps_lookupQualified henv _).bind_fills fun v hv => ?_
  rcases v with _ | v
  · refine (hoperand env K henv).bind fun operand' _ =>
      (fills_selectField henv id (Or.inr (learns_type operand')) field optional).bind
      fun t ht => ?_
    have hresult : p.Admits (if testOnly = true then .bool else t) := by
      split
      · exact admits_bool
      · exact ht
    have hlearns : ∀ slot, p.Learns (.select id operand' field testOnly optional) slot →
        (K slot ∨ p.Learns operand' slot) ∨ slot = .type id := by
      intro slot hslot
      refine hslot.of_type rfl fun c hc h => ?_
      rw [List.mem_singleton.mp hc] at h
      exact Or.inr h
    refine (keeps_resolve hresult).bind_fills fun u hu => (fills_setType _ hu).bind fun _ _ => ?_
    split
    · refine (fills_setReference _ _).bind fun _ _ => fills_pure trivial ?_
      rintro slot (hslot | hslot)
      · exact Or.inl (Or.inl (Or.inl hslot))
      · exact Or.inl (hlearns slot hslot)
    · refine fills_pure trivial ?_
      rintro slot (hslot | hslot)
      · exact Or.inl (Or.inl hslot)
      · exact hlearns slot hslot
  · exact fills_resolveIdent_learns _ (hv v rfl)

/-- An optional selection; one that is not of the right form reports an error. -/
theorem checks_optionalSelect (id : NodeId) (target : Option Expr) {args : List Expr}
    (hargs : ∀ a ∈ args, p.Checks a) :
    p.Checks (.call id Standard.optionalSelect target args) := by
  intro env K henv
  rw [Checking.checkExpr, if_pos rfl]
  refine (fills_checkOptionalSelect henv id hargs K).bind fun r hr =>
    (fills_finishOptionalSelect _ hr).bind fun _ herror => fills_pure trivial ?_
  rintro slot (hslot | hslot)
  · exact Or.inl (Or.inl hslot)
  · refine hslot.of_records fun hstrict c hc h => Or.inr ⟨?_, c, ?_, h⟩
    · cases hresult : r.2 with
      | ok t => exact ⟨t, rfl⟩
      | error err => exact absurd (herror err hresult) hstrict
    · rw [Expr.children, if_pos rfl] at hc
      exact hc

/-- Any other call. -/
theorem checks_call (id : NodeId) {function : String}
    (hfunction : function ≠ Standard.optionalSelect) {target : Option Expr} {args : List Expr}
    (htarget : ∀ r ∈ target, p.Checks r) (hargs : ∀ a ∈ args, p.Checks a) :
    p.Checks (.call id function target args) := by
  intro env K henv
  rw [Checking.checkExpr, if_neg hfunction]
  refine (fills_checkAll henv hargs K).bind fun args' _ =>
    (keeps_lookupNamespaced henv target function).bind_fills fun f hf => ?_
  have hbelow : ∀ e ∈ args', ∀ slot, p.Learns e slot →
      K slot ∨ ∃ e ∈ args', p.Learns e slot := fun e he slot h => Or.inr ⟨e, he, h⟩
  rcases f with _ | f
  · rcases target with _ | receiver
    · refine (keeps_lookupFunction henv function).bind_fills fun f hf => ?_
      rcases f with _ | f
      · exact (fills_undeclared_learns env _ _ _).forget fun _ => Or.inl
      · exact (fills_typeCall_learns env id f.name none (hf f rfl) hbelow).forget fun _ => Or.inl
    · refine (htarget receiver rfl env _ henv).bind fun receiver' _ =>
        (keeps_lookupFunction henv function).bind_fills fun f hf => ?_
      rcases f with _ | f
      · exact (fills_undeclared_learns env _ _ _).forget fun _ h => Or.inl (Or.inl h)
      · refine (fills_typeCall_learns env id function (some receiver') (hf f rfl) ?_).forget
          fun _ h => Or.inl (Or.inl h)
        intro e he slot h
        rcases List.mem_append.mp he with he | he
        · obtain rfl : e = receiver' := by simpa using he
          exact Or.inr h
        · exact Or.inl (hbelow e he slot h)
  · exact (fills_typeCall_learns env id f.name none (hf f rfl) hbelow).forget fun _ => Or.inl

theorem checks_list (id : NodeId) {elements : List Expr} (optionalIndices : List UInt64)
    (helements : ∀ e ∈ elements, p.Checks e) :
    p.Checks (.list id elements optionalIndices) := by
  intro env K henv
  rw [Checking.checkExpr]
  refine (fills_checkElements henv helements K 0 none (by simp)).bind fun r hr => ?_
  have hrest : ∀ element, p.Admits element → p.Fills (fun slot => K slot ∨ ∃ e ∈ r.1,
        p.Learns e slot)
      (do
        Checking.setType (.list id r.1 optionalIndices) (.list element)
        return Expr.list id r.1 optionalIndices)
      (fun _ => True) fun e' slot => K slot ∨ p.Learns e' slot := by
    intro element helement
    refine (fills_setType _ (p.list helement)).bind fun _ _ => fills_pure trivial ?_
    rintro slot (hslot | hslot)
    · exact Or.inl (Or.inl hslot)
    · exact hslot.of_type rfl fun c hc h => Or.inr ⟨c, hc, h⟩
  obtain ⟨elements', _ | t⟩ := r
  · exact keeps_freshVar.bind_fills hrest
  · exact (keeps_pure (hr t rfl)).bind_fills hrest

theorem checks_map (id : NodeId) {entries : List MapEntry}
    (hentries : ∀ e ∈ entries, p.Checks e.key ∧ p.Checks e.value) : p.Checks (.map id entries) := by
  intro env K henv
  rw [Checking.checkExpr]
  refine (fills_checkEntries henv hentries K none (by simp)).bind fun r hr => ?_
  have hpure : ∀ types : Ty × Ty, p.Admits types.1 ∧ p.Admits types.2 →
      p.Keeps (pure types) fun types => p.Admits types.1 ∧ p.Admits types.2 :=
    fun types htypes => keeps_pure htypes
  have hrest : ∀ types : Ty × Ty, p.Admits types.1 ∧ p.Admits types.2 →
      p.Fills (fun slot => K slot ∨ ∃ e ∈ r.1, p.Learns e.key slot ∨ p.Learns e.value slot)
      (do
        Checking.setType (.map id r.1) (.map types.1 types.2)
        return Expr.map id r.1)
      (fun _ => True) fun e' slot => K slot ∨ p.Learns e' slot := by
    intro types htypes
    refine (fills_setType _ (p.map htypes.1 htypes.2)).bind fun _ _ => fills_pure trivial ?_
    rintro slot (hslot | hslot)
    · exact Or.inl (Or.inl hslot)
    · refine hslot.of_type rfl fun c hc h => ?_
      obtain ⟨entry, hentry, hc⟩ := List.mem_flatMap.mp hc
      rcases List.mem_cons.mp hc with rfl | hc
      · exact Or.inr ⟨entry, hentry, Or.inl h⟩
      · rw [List.mem_singleton.mp hc] at h
        exact Or.inr ⟨entry, hentry, Or.inr h⟩
  obtain ⟨entries', _ | types⟩ := r
  · exact keeps_freshVar.bind_fills fun key hkey => keeps_freshVar.bind_fills
      fun value hvalue => (hpure (key, value) ⟨hkey, hvalue⟩).bind_fills hrest
  · exact (hpure types (hr types rfl)).bind_fills hrest

theorem checks_struct (id : NodeId) (messageName : String) {fields : List FieldInit}
    (hfields : ∀ f ∈ fields, p.Checks f.value) : p.Checks (.struct id messageName fields) := by
  intro env K henv
  rw [Checking.checkExpr]
  refine (keeps_lookupIdent henv messageName).bind_fills fun v hv => ?_
  rcases v with _ | v
  · exact fills_undeclared_learns env _ _ _
  · refine (keeps_literalTarget id (hv v rfl)).bind_fills fun target htarget =>
      (fills_checkFields henv htarget hfields K).bind fun fields' _ =>
      (fills_setType _ htarget).bind fun _ _ => (fills_setReference _ _).bind fun _ _ =>
      fills_pure trivial ?_
    rintro slot (hslot | hslot)
    · exact Or.inl (Or.inl (Or.inl hslot))
    · rcases hslot.cases with h | ⟨-, -, h⟩ | ⟨-, c, hc, h⟩
      · exact Or.inl (Or.inr h)
      · exact Or.inr h
      · obtain ⟨f, hf, rfl⟩ := List.mem_map.mp hc
        exact Or.inl (Or.inl (Or.inr ⟨f, hf, h⟩))

theorem checks_comprehension (id : NodeId) (iterVar : String) (iterVar2 : Option String)
    (accuVar : String) {iterRange accuInit loopCondition loopStep result : Expr}
    (hrange : p.Checks iterRange) (hinit : p.Checks accuInit) (hcondition : p.Checks loopCondition)
    (hstep : p.Checks loopStep) (hresult : p.Checks result) :
    p.Checks (.comprehension id iterRange iterVar iterVar2 accuVar accuInit loopCondition loopStep
      result) := by
  intro env K henv
  rw [Checking.checkExpr]
  refine (hrange env K henv).bind fun iterRange' _ => (hinit env _ henv).bind fun accuInit' _ =>
    (fills_typeOf (Or.inl (Or.inr (learns_type iterRange')))).bind fun t ht =>
    (keeps_resolve ht).bind_fills fun rangeType hrangeType =>
    (fills_typeOf (Or.inr (learns_type accuInit'))).bind fun accuType haccuType =>
    (keeps_enterScope henv).bind_fills fun outer houter =>
    (keeps_declareLocal outer accuVar haccuType).bind_fills fun _ _ =>
    (keeps_iterationTypes _ hrangeType _).bind_fills fun types htypes =>
    (keeps_enterScope houter).bind_fills fun inner hinner =>
    (keeps_declareLocal inner iterVar htypes.1).bind_fills fun _ _ => ?_
  have hrest := (hcondition inner
      (fun slot => (K slot ∨ p.Learns iterRange' slot) ∨ p.Learns accuInit' slot) hinner).bind
    fun loopCondition' _ =>
    (fills_requireType (Or.inr (learns_type loopCondition')) admits_bool).bind fun _ _ =>
    (hstep inner _ hinner).bind fun loopStep' _ =>
    (fills_requireType (Or.inr (learns_type loopStep')) haccuType).bind fun _ _ =>
    (hresult outer _ houter).bind fun result' _ =>
    (fills_typeOf (Or.inr (learns_type result'))).bind fun t ht =>
    (keeps_resolve ht).bind_fills fun resultType hresultType =>
    (fills_setType (.comprehension id iterRange' iterVar iterVar2 accuVar accuInit'
      loopCondition' loopStep' result') hresultType).bind fun _ _ =>
    fills_pure (Q := fun _ => True)
      (L := fun e' slot => K slot ∨ p.Learns e' slot) (a := Expr.comprehension id iterRange'
        iterVar iterVar2 accuVar accuInit' loopCondition' loopStep' result') trivial
      (by
        rintro slot (hslot | hslot)
        · simp only [hslot, true_or]
        · refine hslot.of_type rfl fun c hc h => ?_
          simp only [Expr.children, List.mem_cons, List.not_mem_nil, or_false] at hc
          rcases hc with rfl | rfl | rfl | rfl | rfl <;> simp only [h, true_or, or_true])
  rcases iterVar2 with _ | iterVar2
  · exact hrest
  · exact (keeps_declareLocal inner iterVar2 htypes.2).bind_fills fun _ _ => hrest

/-- **A check keeps to the policy**, and fills what the tree it gives back needs. -/
theorem checks (e : Expr) : p.Checks e := by
  induction e using Expr.induct with
  | unset id => exact checks_unset id
  | const id value => exact checks_const id value
  | ident id name => exact checks_ident id name
  | select id _ field testOnly optional hoperand =>
    exact checks_select id field testOnly optional hoperand
  | call id function target _ htarget hargs =>
    by_cases hfunction : function = Standard.optionalSelect
    · rw [hfunction]
      exact checks_optionalSelect id target hargs
    · exact checks_call id hfunction htarget hargs
  | list id _ optionalIndices helements => exact checks_list id optionalIndices helements
  | map id _ hentries => exact checks_map id hentries
  | struct id messageName _ hfields => exact checks_struct id messageName hfields
  | comprehension id _ iterVar iterVar2 accuVar _ _ _ _ hrange hinit hcondition hstep hresult =>
    exact checks_comprehension id iterVar iterVar2 accuVar hrange hinit hcondition hstep hresult

/-! ## Whole checks -/

section Declares

variable {p : Policy} {U : Ty → Prop} {S : Overload → Prop} {env : Env} {store : Store}
  (h : env.Declares U S store) (hU : ∀ t, U t → p.Admits t) (hscopes : p.scopes = env.scopes.chain)

include h hU hscopes

theorem stores_of_declares (hS : ∀ o, S o → p.Supplies o)
    (hfresh : p.fresh = store.groups.size) : p.Stores store := by
  refine ⟨fun {id} hid => ?_, Nat.le_of_eq hfresh⟩
  rcases hid with hid | hid
  · rw [hscopes] at hid
    exact ⟨fun hv => hU _ (h.idents id hid hv), fun hf o ho => hS o (h.overloads id hid hf o ho)⟩
  · -- nothing is declared yet beyond the end of the store
    rw [hfresh] at hid
    unfold Store.group
    rw [Array.getElem?_eq_none hid]
    exact Group.within_empty

theorem covers_of_declares : p.Covers env where
  scopes _ hid := Or.inl (hscopes ▸ hid)
  provided hv := hU _ (h.provided hv)
  fields ht := hU _ (h.fields ht)

end Declares

theorem Stores.sound_start {p : Policy} {store : Store} (h : p.Stores store) :
    p.Sound (.start store) :=
  ⟨.refl, fun ht => absurd ht (by simp [CheckState.start]), h⟩

section Whole

variable (p : Policy) {env : Env} (henv : p.Covers env) {store : Store} (hstore : p.Stores store)
  (source : Source) (e : Expr)

include henv hstore

/-- **Every state that a check goes through is sound**, for as long as the numbers of type variables
are early, if errors are tolerated or none is found. -/
theorem sound_of_early (hdown : ∀ {i j}, i ≤ j → p.Early j → p.Early i)
    (hsorted : (Tracing.states env store e).Pairwise fun s t => s.nextVar ≤ t.nextVar)
    (hquiet : p.Tolerant ∨ (Tracing.whole env store e).final.errors = []) :
    ∀ s ∈ Tracing.states env store e, p.Early s.nextVar → p.Sound s := by
  have hstart := hstore.sound_start
  have hcourse := checks e env (fun _ => False) henv _ hstart (by simp)
    (hquiet.imp_right Tracing.visited_errors)
  exact List.forall_mem_cons.mpr
    ⟨fun _ => hstart, hcourse.sound hdown (List.pairwise_cons.mp hsorted).2⟩

variable (hearly : ∀ n, p.Early n)

include hearly

/-- The numbers of type variables never go back in a check. -/
theorem sorted_states (hquiet : p.Tolerant ∨ (Tracing.whole env store e).final.errors = []) :
    (Tracing.states env store e).Pairwise fun s t => s.nextVar ≤ t.nextVar :=
  List.pairwise_cons.mpr ((checks e env (fun _ => False) henv _ hstore.sound_start (by simp)
    (hquiet.imp_right Tracing.visited_errors)).sorted hearly)

/-- Every state that a check goes through is sound for a policy about all type variables. -/
theorem sound_of_mem_states
    (hquiet : p.Tolerant ∨ (Tracing.whole env store e).final.errors = []) :
    ∀ s ∈ Tracing.states env store e, p.Sound s := fun s hs =>
  p.sound_of_early henv hstore e (fun _ _ => hearly _)
    (p.sorted_states henv hstore e hearly hquiet) hquiet s hs (hearly _)

/-- The types that a check gives are admitted, if errors are tolerated or none is found. -/
theorem admits_types (hquiet : p.Tolerant ∨ (check env store source e).1.isOk = true)
    {id : NodeId} {t : Ty} (ht : (check env store source e).1.types.find? id = some t) :
    p.Admits t := by
  rw [check_isOk_iff] at hquiet
  have hfinal := p.sound_of_mem_states henv hstore e hearly hquiet _
    (Tracing.final_mem_states env store e)
  rw [check_types] at ht
  obtain ⟨u, hu, rfl⟩ := Option.map_eq_some_iff.mp ht
  exact hfinal.admits_substitute true (hfinal.types hu)

/-- What the tree needs that a check gives back is filled, if no error is found. -/
theorem filled_of_needs (hstrict : ¬ p.Tolerant) (hok : (check env store source e).1.isOk = true)
    {slot : Slot} (hneeds : (check env store source e).1.expr.Needs slot) :
    (Tracing.whole env store e).final.Filled slot := by
  rw [check_isOk_iff] at hok
  rw [check_expr] at hneeds
  have hstart := hstore.sound_start
  obtain ⟨-, -, -, hfilled, -⟩ := (checks e env (fun _ => False) henv _ hstart (by simp)
    (Or.inr (Tracing.visited_errors hok))).exists_end hearly
  exact hfilled slot (Or.inr (Or.inr ⟨hstrict, hneeds⟩))

end Whole

end Policy
end CelTyping
