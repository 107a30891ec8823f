import CelTyping.Check.Walk
import CelTyping.Proofs.Expr.Nodes

/-!
# One check in many monads

The operations of a check are written for every monad that keeps its state.  What a check does in
one such monad, it does in another: a relation between the computations of two monads that holds
of the primitive operations and is kept by sequencing (`Congruence`) holds of the whole check.

This is used in two ways.  Relating a monad with itself gives facts that hold of every operation
whatever values it is given, such as that errors are never taken back.  Relating two monads shows
that they run the same check, such as a monad that remembers the states it went through and the
one that does not.

## Two environments

Whether literals have to be homogeneous is asked in one place only, where the type of one more entry
is joined to that of the entries before.  So the two sides may also check against environments that
differ in this, as long as the relation holds of these joins (`CongruenceOn`).  The walk over the
tree is done once, for two environments; `Congruence.checkExpr` is the case of one.
-/

namespace CelTyping

namespace Env

/-- The environment in which literals have to be homogeneous, or need not be. -/
def withHomogeneous (env : Env) (homogeneous : Bool) : Env :=
  { env with options := { env.options with homogeneousLiterals := homogeneous } }

theorem lookupFrom_withHomogeneous (env : Env) (b : Bool) (store : Store) (names : List String) :
    (env.withHomogeneous b).lookupFrom store names = env.lookupFrom store names := by
  induction names with
  | nil => rfl
  | cons name rest ih =>
    rw [lookupFrom, lookupFrom, ih]
    rfl

end Env

namespace Checking

variable {M N : Type → Type} [Monad M] [MonadStateOf CheckState M] [Monad N]
  [MonadStateOf CheckState N]

/-- A relation that holds of what reads or changes the state and is kept by sequencing. -/
structure Congruence (R : (α : Type) → M α → N α → Prop) : Prop where
  pure {α : Type} (a : α) : R _ (pure a) (pure a)
  bind {α β : Type} {x : M α} {y : N α} {f : α → M β} {g : α → N β} :
    R _ x y → (∀ a, R _ (f a) (g a)) → R _ (x >>= f) (y >>= g)
  get : R _ (get : M CheckState) (get : N CheckState)
  report (id : NodeId) (fault : Fault) : R _ (report id fault) (report id fault)
  setType (e : Expr) (t : Ty) : R _ (setType e t) (setType e t)
  setReference (e : Expr) (r : Reference) : R _ (setReference e r) (setReference e r)
  setNextVar (n : Nat) : R _ (setNextVar n) (setNextVar n)
  setMapping (m : Mapping) : R _ (setMapping m) (setMapping m)
  setStore (store : Store) : R _ (setStore store) (setStore store)

namespace Congruence

variable {R : (α : Type) → M α → N α → Prop} (h : Congruence R)

include h

/-! ## Loops -/

theorem foldlM {α β : Type} {f : β → α → M β} {g : β → α → N β} (hf : ∀ b a, R _ (f b a) (g b a)) :
    ∀ (as : List α) (b : β), R _ (as.foldlM f b) (as.foldlM g b)
  | [], b => h.pure b
  | a :: as, b => h.bind (hf b a) fun c => foldlM hf as c

theorem mapM {α β : Type} {f : α → M β} {g : α → N β} (hf : ∀ a, R _ (f a) (g a)) (as : List α) :
    R _ (as.mapM f) (as.mapM g) := by
  have hloop : ∀ (as : List α) (bs : List β),
      R _ (List.mapM.loop f as bs) (List.mapM.loop g as bs) := by
    intro as
    induction as with
    | nil => exact fun bs => h.pure bs.reverse
    | cons a as ih => exact fun bs => h.bind (hf a) fun b => ih (b :: bs)
  exact hloop as []

/-! ## The operations -/

theorem reportUndeclared (env : Env) (id : NodeId) (name : String) :
    R _ (reportUndeclared env id name) (reportUndeclared env id name) :=
  h.report id _

theorem typeOf (id : NodeId) : R _ (typeOf id) (typeOf id) := h.bind h.get fun _ => h.pure _

theorem freshVar : R _ freshVar freshVar :=
  h.bind h.get fun _ => h.bind (h.setNextVar _) fun _ => h.pure _

theorem resolve (t : Ty) : R _ (resolve t) (resolve t) := h.bind h.get fun _ => h.pure _

theorem resolveFully (t : Ty) : R _ (resolveFully t) (resolveFully t) :=
  h.bind h.get fun _ => h.pure _

theorem keep : ∀ m : Option Mapping, R _ (keep m) (keep m)
  | some m => h.bind (h.setMapping m) fun _ => h.pure true
  | none => h.pure false

theorem unify (a b : Ty) : R _ (unify a b) (unify a b) := h.bind h.get fun _ => h.keep _

theorem unifyAll (as bs : List Ty) : R _ (unifyAll as bs) (unifyAll as bs) :=
  h.bind h.get fun _ => h.keep _

theorem lookupIdent (env : Env) (name : String) :
    R _ (lookupIdent env name) (lookupIdent env name) :=
  h.bind h.get fun _ => h.bind (h.setStore _) fun _ => h.pure _

theorem lookupFunction (env : Env) (name : String) :
    R _ (lookupFunction env name) (lookupFunction env name) :=
  h.bind h.get fun _ => h.pure _

theorem enterScope (env : Env) : R _ (enterScope env) (enterScope env) :=
  h.bind h.get fun _ => h.bind (h.setStore _) fun _ => h.pure _

theorem declareLocal (env : Env) (name : String) (t : Ty) :
    R _ (declareLocal env name t) (declareLocal env name t) :=
  h.bind h.get fun _ => h.setStore _

/-! ## Overload resolution -/

theorem tryOverload (argTypes : List Ty) (found : Option (Ty × Reference)) (o : Overload) :
    R _ (tryOverload argTypes found o) (tryOverload argTypes found o) := by
  refine h.bind h.get fun s => h.bind (h.setNextVar _) fun _ => h.bind (h.unifyAll _ _) ?_
  rintro (_ | _)
  · exact h.pure found
  · refine h.bind (h.resolve _) fun t => ?_
    rcases found with _ | ⟨current, reference⟩
    · exact h.pure _
    · exact h.pure _

theorem requireBools : ∀ args : List (NodeId × Ty), R _ (requireBools args) (requireBools args)
  | [] => h.pure true
  | (id, t) :: rest => by
    refine h.bind (h.unify t .bool) ?_
    rintro (_ | _)
    · exact h.bind (h.report id _) fun _ => h.bind (requireBools rest) fun _ => h.pure _
    · exact h.bind (requireBools rest) fun _ => h.pure _

theorem reportNoMatch (id : NodeId) (f : FunctionDecl) (argTypes : List Ty) (isMember : Bool) :
    R _ (reportNoMatch id f argTypes isMember) (reportNoMatch id f argTypes isMember) :=
  h.bind (h.mapM h.resolveFully argTypes) fun _ => h.report id _

theorem resolveOverload (env : Env) (id : NodeId) (f : FunctionDecl) (target : Option NodeId)
    (args : List NodeId) :
    R _ (resolveOverload env id f target args) (resolveOverload env id f target args) := by
  refine h.bind (h.mapM h.typeOf _) fun argTypes => ?_
  split
  · dsimp only
    split
    · refine h.bind (h.requireBools _) ?_
      rintro (_ | _)
      · exact h.pure _
      · exact h.pure _
    · exact h.bind (h.reportNoMatch _ _ _ _) fun _ => h.pure _
  · refine h.bind (h.foldlM (h.tryOverload argTypes) _ none) ?_
    rintro (_ | found)
    · exact h.bind (h.reportNoMatch _ _ _ _) fun _ => h.pure _
    · exact h.pure _

/-! ## Typing rules -/

theorem resolveIdent (e : Expr) (v : Variable) : R _ (resolveIdent e v) (resolveIdent e v) :=
  h.bind (h.setType _ _) fun _ => h.bind (h.setReference _ _) fun _ => h.pure _

theorem lookupQualified (env : Env) (e : Expr) :
    R _ (lookupQualified env e) (lookupQualified env e) := by
  unfold Checking.lookupQualified
  split
  · exact h.lookupIdent _ _
  · exact h.pure _

theorem fieldType (env : Env) (id : NodeId) (message field : String) :
    R _ (fieldType env id message field) (fieldType env id message field) := by
  unfold Checking.fieldType
  split
  · exact h.bind (h.report _ _) fun _ => h.pure _
  · split
    · exact h.pure _
    · exact h.bind (h.report _ _) fun _ => h.pure _

theorem selectFrom (env : Env) (id : NodeId) (target : Ty) (field : String) :
    R _ (selectFrom env id target field) (selectFrom env id target field) := by
  unfold Checking.selectFrom
  split
  · exact h.pure _
  · exact h.bind (h.fieldType _ _ _ _) fun _ => h.pure _
  · exact h.bind (h.unify _ _) fun _ => h.pure _
  · split
    · exact h.bind (h.report _ _) fun _ => h.pure _
    · exact h.pure _

theorem selectField (env : Env) (id operand : NodeId) (field : String) (optional : Bool) :
    R _ (selectField env id operand field optional) (selectField env id operand field optional) :=
  h.bind (h.typeOf _) fun _ => h.bind (h.resolve _) fun _ => h.bind (h.selectFrom _ _ _ _)
    fun _ => h.pure _

theorem unwrapOptional (id : NodeId) (t : Ty) :
    R _ (unwrapOptional id t) (unwrapOptional id t) := by
  refine h.bind (h.resolve t) fun t => ?_
  split
  · exact h.pure _
  · split
    · exact h.bind (h.report _ _) fun _ => h.pure _
    · exact h.pure _

theorem entryType (id : NodeId) (optional : Bool) :
    R _ (entryType id optional) (entryType id optional) := by
  refine h.bind (h.typeOf id) fun t => ?_
  split
  · exact h.unwrapOptional _ _
  · exact h.pure _

theorem joinTypes (env : Env) (id : NodeId) (previous : Option Ty) (current : Ty) :
    R _ (joinTypes env id previous current) (joinTypes env id previous current) := by
  rcases previous with _ | previous
  · exact h.pure _
  · refine h.bind (h.unify _ _) fun unified => ?_
    split
    · exact h.pure _
    · split
      · exact h.bind (h.report _ _) fun _ => h.pure _
      · exact h.pure _

theorem literalTarget (id : NodeId) (v : Variable) :
    R _ (literalTarget id v) (literalTarget id v) := by
  unfold Checking.literalTarget
  split
  · exact h.pure _
  · split
    · exact h.pure _
    · split
      · exact h.pure _
      · exact h.bind (h.report _ _) fun _ => h.pure _
  · exact h.bind (h.report _ _) fun _ => h.pure _

theorem checkInit (env : Env) (f : FieldInit) (message : String) (target : Ty) :
    R _ (checkInit env f message target) (checkInit env f message target) := by
  have hrest : ∀ declared : Ty, R _
      (do
        let given ← Checking.entryType f.value.id f.optional
        if !(← Checking.unify declared given) then
          Checking.report f.id (.fieldTypeMismatch f.field declared.display given.display))
      (do
        let given ← Checking.entryType f.value.id f.optional
        if !(← Checking.unify declared given) then
          Checking.report f.id (.fieldTypeMismatch f.field declared.display given.display)) := by
    intro declared
    refine h.bind (h.entryType _ _) fun given => h.bind (h.unify _ _) fun unified => ?_
    split
    · exact h.report _ _
    · exact h.pure _
  unfold Checking.checkInit
  split
  · exact h.bind (h.pure _) fun declared => hrest declared
  · exact h.bind (h.fieldType _ _ _ _) fun _ => h.bind (h.pure _) fun declared => hrest declared

theorem iterationTypes (id : NodeId) (range : Ty) (twoVars : Bool) :
    R _ (iterationTypes id range twoVars) (iterationTypes id range twoVars) := by
  unfold Checking.iterationTypes
  split
  · exact h.pure _
  · exact h.pure _
  · exact h.bind (h.unify _ _) fun _ => h.pure _
  · exact h.bind (h.unify _ _) fun _ => h.pure _
  · exact h.bind (h.unify _ _) fun _ => h.pure _
  · exact h.bind (h.report _ _) fun _ => h.pure _

theorem requireType (id : NodeId) (expected : Ty) :
    R _ (requireType id expected) (requireType id expected) := by
  refine h.bind (h.typeOf _) fun actual => h.bind (h.unify _ _) fun unified => ?_
  split
  · exact h.report _ _
  · exact h.pure _

/-! ## Calls -/

theorem finishCall (e : Expr) (found : Option (Ty × Reference)) :
    R _ (finishCall e found) (finishCall e found) := by
  rcases found with _ | ⟨t, reference⟩
  · exact h.setType _ _
  · exact h.bind (h.setType _ _) fun _ => h.setReference _ _

theorem typeCall (env : Env) (e : Expr) (f : FunctionDecl) (target : Option NodeId)
    (args : List NodeId) : R _ (typeCall env e f target args) (typeCall env e f target args) :=
  h.bind (h.resolveOverload _ _ _ _ _) fun _ => h.bind (h.finishCall _ _) fun _ => h.pure _

theorem undeclaredCall (env : Env) (e : Expr) (function : String) :
    R _ (undeclaredCall env e function) (undeclaredCall env e function) :=
  h.bind (h.setType _ _) fun _ => h.bind (h.reportUndeclared _ _ _) fun _ => h.pure _

theorem lookupNamespaced (env : Env) (target : Option Expr) (function : String) :
    R _ (lookupNamespaced env target function) (lookupNamespaced env target function) := by
  unfold Checking.lookupNamespaced
  split
  · exact h.lookupFunction _ _
  · exact h.pure _

theorem finishOptionalSelect (e : Expr) (result : Except CheckError Ty) :
    R _ (finishOptionalSelect e result) (finishOptionalSelect e result) := by
  rcases result with err | t
  · exact h.bind (h.report _ _) fun _ => h.setType _ _
  · exact h.bind (h.resolve _) fun _ => h.bind (h.setType _ _) fun _ => h.setReference _ _

end Congruence

/-! ## Two environments -/

/-- A congruence for checks against two environments that are related: they differ at most in
whether literals have to be homogeneous, new scopes are related again, and so are the joins that
they lead to. -/
structure CongruenceOn (E : Env → Env → Prop) (R : (α : Type) → M α → N α → Prop) : Prop
    extends Congruence R where
  same {env env' : Env} : E env env' → ∃ b, env' = env.withHomogeneous b
  scope {α : Type} {env env' : Env} {k : Env → M α} {l : Env → N α} : E env env' →
    (∀ outer outer', E outer outer' → R _ (k outer) (l outer')) →
      R _ (Checking.enterScope env >>= k) (Checking.enterScope env' >>= l)
  join {env env' : Env} : E env env' → ∀ (id : NodeId) (previous : Option Ty) (current : Ty),
    R _ (Checking.joinTypes env id previous current) (Checking.joinTypes env' id previous current)

variable {R : (α : Type) → M α → N α → Prop}

theorem Congruence.on_eq (h : Congruence R) : CongruenceOn Eq R where
  toCongruence := h
  same := fun {env _} henv => ⟨env.options.homogeneousLiterals, henv.symm⟩
  scope := by
    rintro α env _ k l rfl hk
    exact h.bind (h.enterScope env) fun outer => hk outer outer rfl
  join := by
    rintro env _ rfl
    exact h.joinTypes env

/-- Looking up an identifier does not ask whether literals have to be homogeneous. -/
theorem lookupIdent_withHomogeneous (env : Env) (b : Bool) (name : String) :
    (lookupIdent (env.withHomogeneous b) name : M (Option Variable)) = lookupIdent env name := by
  unfold lookupIdent Env.lookupIdent
  simp only [env.lookupFrom_withHomogeneous b]
  rfl

theorem lookupQualified_withHomogeneous (env : Env) (b : Bool) (e : Expr) :
    (lookupQualified (env.withHomogeneous b) e : M (Option Variable)) = lookupQualified env e := by
  unfold lookupQualified
  simp only [lookupIdent_withHomogeneous]

namespace CongruenceOn

variable {E : Env → Env → Prop} (h : CongruenceOn E R)

include h

/-! ## The walk

Apart from looking up identifiers, what an operation reads of the second environment is by
definition what it reads of the first. -/

theorem checkOptionalSelect (id : NodeId) {args : List Expr}
    (hargs : ∀ e ∈ args, ∀ env env', E env env' →
      R _ (Checking.checkExpr env e) (Checking.checkExpr env' e)) {env env' : Env}
    (henv : E env env') :
    R _ (checkOptionalSelect env id args) (checkOptionalSelect env' id args) := by
  obtain ⟨b, rfl⟩ := h.same henv
  unfold Checking.checkOptionalSelect
  split
  · exact h.bind (hargs _ List.mem_cons_self _ _ henv) fun _ =>
      h.bind (h.selectField env _ _ _ _) fun _ => h.pure _
  · exact h.pure _
  · exact h.pure _

theorem checkAll : ∀ {es : List Expr},
    (∀ e ∈ es, ∀ env env', E env env' →
      R _ (Checking.checkExpr env e) (Checking.checkExpr env' e)) →
      ∀ env env', E env env' → R _ (checkAll env es) (checkAll env' es)
  | [], _, env, env', _ => by
    rw [Checking.checkAll, Checking.checkAll]
    exact h.pure _
  | e :: rest, hes, env, env', henv => by
    obtain ⟨he, hrest⟩ := List.forall_mem_cons.mp hes
    rw [Checking.checkAll, Checking.checkAll]
    exact h.bind (he _ _ henv) fun _ => h.bind (checkAll hrest _ _ henv) fun _ => h.pure _

theorem checkElements {optionalIndices : List UInt64} : ∀ {es : List Expr},
    (∀ e ∈ es, ∀ env env', E env env' →
      R _ (Checking.checkExpr env e) (Checking.checkExpr env' e)) →
      ∀ env env', E env env' → ∀ index element,
        R _ (checkElements env optionalIndices index element es)
          (checkElements env' optionalIndices index element es)
  | [], _, env, env', _, index, element => by
    rw [Checking.checkElements, Checking.checkElements]
    exact h.pure _
  | e :: rest, hes, env, env', henv, index, element => by
    obtain ⟨he, hrest⟩ := List.forall_mem_cons.mp hes
    rw [Checking.checkElements, Checking.checkElements]
    exact h.bind (he _ _ henv) fun _ => h.bind (h.entryType _ _) fun _ =>
      h.bind (h.join henv _ _ _) fun _ => h.bind (checkElements hrest _ _ henv _ _) fun _ =>
      h.pure _

theorem checkEntries : ∀ {entries : List MapEntry},
    (∀ e ∈ entries,
      (∀ env env', E env env' →
        R _ (Checking.checkExpr env e.key) (Checking.checkExpr env' e.key)) ∧
      ∀ env env', E env env' →
        R _ (Checking.checkExpr env e.value) (Checking.checkExpr env' e.value)) →
      ∀ env env', E env env' → ∀ types,
        R _ (checkEntries env types entries) (checkEntries env' types entries)
  | [], _, env, env', _, types => by
    rw [Checking.checkEntries, Checking.checkEntries]
    exact h.pure _
  | ⟨id, key, value, optional⟩ :: rest, hes, env, env', henv, types => by
    obtain ⟨⟨hkey, hvalue⟩, hrest⟩ := List.forall_mem_cons.mp hes
    rw [Checking.checkEntries, Checking.checkEntries]
    exact h.bind (hkey _ _ henv) fun _ => h.bind (h.typeOf _) fun _ =>
      h.bind (h.join henv _ _ _) fun _ => h.bind (hvalue _ _ henv) fun _ =>
      h.bind (h.entryType _ _) fun _ => h.bind (h.join henv _ _ _) fun _ =>
      h.bind (checkEntries hrest _ _ henv _) fun _ => h.pure _

theorem checkFields {message : String} {target : Ty} : ∀ {fields : List FieldInit},
    (∀ f ∈ fields, ∀ env env', E env env' →
      R _ (Checking.checkExpr env f.value) (Checking.checkExpr env' f.value)) →
      ∀ env env', E env env' →
        R _ (checkFields env message target fields) (checkFields env' message target fields)
  | [], _, env, env', _ => by
    rw [Checking.checkFields, Checking.checkFields]
    exact h.pure _
  | ⟨id, field, value, optional⟩ :: rest, hfs, env, env', henv => by
    obtain ⟨hvalue, hrest⟩ := List.forall_mem_cons.mp hfs
    obtain ⟨b, rfl⟩ := h.same henv
    rw [Checking.checkFields, Checking.checkFields]
    exact h.bind (hvalue _ _ henv) fun _ => h.bind (h.checkInit env _ _ _) fun _ =>
      h.bind (checkFields hrest _ _ henv) fun _ => h.pure _

/-- **A check does the same on both sides.** -/
theorem checkExpr (e : Expr) :
    ∀ env env', E env env' → R _ (checkExpr env e) (checkExpr env' e) := by
  induction e using Expr.induct with
  | unset id =>
    intro env env' henv
    rw [Checking.checkExpr, Checking.checkExpr]
    exact h.bind (h.report _ _) fun _ => h.bind (h.setType _ _) fun _ => h.pure _
  | const id value =>
    intro env env' henv
    rw [Checking.checkExpr, Checking.checkExpr]
    exact h.bind (h.setType _ _) fun _ => h.pure _
  | ident id name =>
    intro env env' henv
    obtain ⟨b, rfl⟩ := h.same henv
    rw [Checking.checkExpr, Checking.checkExpr, lookupIdent_withHomogeneous]
    refine h.bind (h.lookupIdent env _) ?_
    rintro (_ | v)
    · exact h.bind (h.setType _ _) fun _ => h.bind (h.reportUndeclared env _ _) fun _ => h.pure _
    · exact h.resolveIdent _ _
  | select id operand field testOnly optional hoperand =>
    intro env env' henv
    obtain ⟨b, rfl⟩ := h.same henv
    rw [Checking.checkExpr, Checking.checkExpr, lookupQualified_withHomogeneous]
    refine h.bind (h.lookupQualified env _) ?_
    rintro (_ | v)
    · refine h.bind (hoperand _ _ henv) fun operand => h.bind (h.selectField env _ _ _ _)
        fun result => h.bind (h.resolve _) fun t => h.bind (h.setType _ _) fun _ => ?_
      split
      · exact h.bind (h.setReference _ _) fun _ => h.pure _
      · exact h.pure _
    · exact h.resolveIdent _ _
  | call id function target args htarget hargs =>
    intro env env' henv
    obtain ⟨b, rfl⟩ := h.same henv
    rw [Checking.checkExpr, Checking.checkExpr]
    split
    · exact h.bind (h.checkOptionalSelect id hargs henv) fun _ =>
        h.bind (h.finishOptionalSelect _ _) fun _ => h.pure _
    · refine h.bind (h.checkAll hargs _ _ henv) fun args =>
        h.bind (h.lookupNamespaced env _ _) ?_
      rintro (_ | f)
      · rcases target with _ | receiver
        · refine h.bind (h.lookupFunction env _) ?_
          rintro (_ | f)
          · exact h.undeclaredCall env _ _
          · exact h.typeCall env _ _ _ _
        · refine h.bind (htarget receiver rfl _ _ henv) fun receiver =>
            h.bind (h.lookupFunction env _) ?_
          rintro (_ | f)
          · exact h.undeclaredCall env _ _
          · exact h.typeCall env _ _ _ _
      · exact h.typeCall env _ _ _ _
  | list id elements optionalIndices helements =>
    intro env env' henv
    rw [Checking.checkExpr, Checking.checkExpr]
    refine h.bind (h.checkElements helements _ _ henv 0 none) ?_
    rintro ⟨elements, _ | t⟩
    · exact h.bind h.freshVar fun _ => h.bind (h.setType _ _) fun _ => h.pure _
    · exact h.bind (h.pure _) fun _ => h.bind (h.setType _ _) fun _ => h.pure _
  | map id entries hentries =>
    intro env env' henv
    rw [Checking.checkExpr, Checking.checkExpr]
    refine h.bind (h.checkEntries hentries _ _ henv none) ?_
    rintro ⟨entries, _ | types⟩
    · exact h.bind h.freshVar fun _ => h.bind h.freshVar fun _ => h.bind (h.pure _) fun _ =>
        h.bind (h.setType _ _) fun _ => h.pure _
    · exact h.bind (h.pure _) fun _ => h.bind (h.setType _ _) fun _ => h.pure _
  | struct id messageName fields hfields =>
    intro env env' henv
    obtain ⟨b, rfl⟩ := h.same henv
    rw [Checking.checkExpr, Checking.checkExpr, lookupIdent_withHomogeneous]
    refine h.bind (h.lookupIdent env _) ?_
    rintro (_ | v)
    · exact h.bind (h.setType _ _) fun _ => h.bind (h.reportUndeclared env _ _) fun _ => h.pure _
    · exact h.bind (h.literalTarget _ _) fun target =>
        h.bind (h.checkFields hfields _ _ henv) fun _ => h.bind (h.setType _ _) fun _ =>
        h.bind (h.setReference _ _) fun _ => h.pure _
  | comprehension id iterRange iterVar iterVar2 accuVar accuInit loopCondition loopStep result
      hrange hinit hcondition hstep hresult =>
    intro env env' henv
    rw [Checking.checkExpr, Checking.checkExpr]
    refine h.bind (hrange _ _ henv) fun iterRange => h.bind (hinit _ _ henv) fun accuInit =>
      h.bind (h.typeOf _) fun t => h.bind (h.resolve _) fun rangeType =>
      h.bind (h.typeOf _) fun accuType => h.scope henv fun outer outer' houter => ?_
    obtain ⟨b, rfl⟩ := h.same houter
    refine h.bind (h.declareLocal outer _ _) fun _ => h.bind (h.iterationTypes _ _ _) fun types =>
      h.scope houter fun inner inner' hinner => ?_
    obtain ⟨b', rfl⟩ := h.same hinner
    refine h.bind (h.declareLocal inner _ _) fun _ => ?_
    have hrest := h.bind (hcondition _ _ hinner) fun loopCondition =>
      h.bind (h.requireType loopCondition.id .bool) fun _ =>
      h.bind (hstep _ _ hinner) fun loopStep =>
      h.bind (h.requireType loopStep.id accuType) fun _ =>
      h.bind (hresult _ _ houter) fun result => h.bind (h.typeOf result.id) fun t =>
      h.bind (h.resolve t) fun resultType =>
      h.bind (h.setType (Expr.comprehension id iterRange iterVar iterVar2 accuVar accuInit
        loopCondition loopStep result) resultType) fun _ =>
      h.pure (Expr.comprehension id iterRange iterVar iterVar2 accuVar accuInit
        loopCondition loopStep result)
    rcases iterVar2 with _ | iterVar2
    · exact hrest
    · exact h.bind (h.declareLocal inner _ _) fun _ => hrest

end CongruenceOn

namespace Congruence

variable (h : Congruence R) (env : Env)

include h

/-- **A check does the same in both monads.** -/
theorem checkExpr (e : Expr) : R _ (checkExpr env e) (checkExpr env e) :=
  h.on_eq.checkExpr e env env rfl

theorem checkAll (es : List Expr) : R _ (checkAll env es) (checkAll env es) :=
  h.on_eq.checkAll (fun e _ => h.on_eq.checkExpr e) env env rfl

theorem checkElements (optionalIndices : List UInt64) (index : Nat) (element : Option Ty)
    (es : List Expr) :
    R _ (checkElements env optionalIndices index element es)
      (checkElements env optionalIndices index element es) :=
  h.on_eq.checkElements (fun e _ => h.on_eq.checkExpr e) env env rfl index element

theorem checkEntries (types : Option (Ty × Ty)) (entries : List MapEntry) :
    R _ (checkEntries env types entries) (checkEntries env types entries) :=
  h.on_eq.checkEntries (fun e _ => ⟨h.on_eq.checkExpr e.key, h.on_eq.checkExpr e.value⟩) env env rfl
    types

theorem checkFields (message : String) (target : Ty) (fields : List FieldInit) :
    R _ (checkFields env message target fields) (checkFields env message target fields) :=
  h.on_eq.checkFields (fun f _ => h.on_eq.checkExpr f.value) env env rfl

end Congruence

end Checking
end CelTyping
