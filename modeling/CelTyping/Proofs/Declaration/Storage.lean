import CelTyping.Declaration.FunctionDecl
import CelTyping.Table
import Mathlib.Data.List.Basic

/-!
# Overloads stored by id

A function keeps its overloads in the order of their declaration.  They may as well be stored in a
table by id, beside a list of the ids in this order, the *ordinals*; then an overload is found by
its id at once, and declaring one again leaves its ordinal alone.  This module says how functions
are put together in that form, and that both forms come to the same.

* `Keyed`: the ordinals list every key of the table once, and overloads are stored under their own
  ids.  Adding an overload keeps this (`Keyed.addOverload`), and so does merging (`Keyed.merge`).
* `toDecl_addOverload`, `toDecl_merge`: adding and merging give the function that the list of
  overloads gives, or the same error.

The table and the ordinals can disagree in general: an ordinal without an overload is passed over,
and the refinement needs `Keyed`.
-/

namespace CelTyping

/-- A function whose overloads are stored by id. -/
structure StoredFunction where
  /-- The full name. -/
  name : String
  /-- The overloads by id. -/
  table : Table String Overload
  /-- The ids, in the order of their declaration. -/
  ordinals : List String
  /-- The implementation that all overloads share. -/
  singleton : Option Implementation
  /-- Whether implementations run without a look at the types of their arguments. -/
  guardsDisabled : Bool
  /-- Whether the function takes part in checking. -/
  state : DeclarationState

namespace StoredFunction

/-- A function without overloads. -/
def ofName (name : String) : StoredFunction := ⟨name, .empty, [], none, false, .unspecified⟩

/-- The overloads, in the order of their declaration. -/
def overloads (f : StoredFunction) : List Overload := f.ordinals.filterMap f.table.find?

/-- The function with the list of its overloads. -/
def toDecl (f : StoredFunction) : FunctionDecl :=
  ⟨f.name, f.overloads, f.singleton, f.guardsDisabled, f.state⟩

/-! ## Adding overloads -/

/-- The function with an overload in the place of the one with its id. -/
def replace (f : StoredFunction) (o : Overload) : StoredFunction :=
  { f with table := f.table.insert o.id o }

/-- The function with one more overload. -/
def append (f : StoredFunction) (o : Overload) : StoredFunction :=
  { f with table := f.table.insert o.id o, ordinals := f.ordinals ++ [o.id] }

/-- Compare an overload with those of some ids, one after the other, up to its own id. -/
def placeAmong (f : StoredFunction) (o : Overload) :
    List String → Except DeclarationError StoredFunction
  | [] => .ok (f.append o)
  | id :: rest =>
    match f.table.find? id with
    | none => f.placeAmong o rest
    | some existing =>
      if id ≠ o.id ∧ existing.overlaps o = true then .error (.overloadCollision f.name o.id id)
      else if id = o.id then
        if existing.sameSignature o && existing.nonStrict == o.nonStrict then
          .ok (if o.hasImplementation then f.replace o else f)
        else .error (.overloadRedefinition f.name id)
      else f.placeAmong o rest

/-- Add an overload. -/
def addOverload (f : StoredFunction) (o : Overload) : Except DeclarationError StoredFunction :=
  f.placeAmong o f.ordinals

/-- Add overloads, one after the other. -/
def addOverloads (f : StoredFunction) (os : List Overload) :
    Except DeclarationError StoredFunction :=
  os.foldlM addOverload f

/-- Add what another declaration of the same function says. -/
def merge (f g : StoredFunction) : Except DeclarationError StoredFunction :=
  if f.name = g.name then do
    let merged ← f.addOverloads g.overloads
    let singleton ← FunctionDecl.mergeSingleton f.name f.singleton g.singleton
    return { merged with
      singleton := singleton
      guardsDisabled := f.guardsDisabled && g.guardsDisabled
      state := if g.state = .unspecified then f.state else g.state }
  else .error (.unrelatedMerge f.name g.name)

/-! ## Table and ordinals -/

/-- The table and the ordinals agree. -/
structure Keyed (f : StoredFunction) : Prop where
  /-- No id is listed twice. -/
  nodup : f.ordinals.Nodup
  /-- The ordinals are the keys of the table. -/
  mem_ordinals : ∀ id, id ∈ f.ordinals ↔ f.table.contains id = true
  /-- Every overload is stored under its own id. -/
  id_eq : ∀ {id : String} {o : Overload}, f.table.find? id = some o → o.id = id

variable {f g : StoredFunction} {o : Overload}

theorem keyed_ofName (name : String) : (ofName name).Keyed where
  nodup := List.nodup_nil
  mem_ordinals _ := iff_of_false List.not_mem_nil Bool.false_ne_true
  id_eq h := nomatch h

theorem Keyed.exists_of_mem (hf : f.Keyed) {id : String} (h : id ∈ f.ordinals) :
    ∃ o, f.table.find? id = some o ∧ o.id = id := by
  obtain ⟨o, ho⟩ := Option.isSome_iff_exists.mp ((hf.mem_ordinals id).mp h)
  exact ⟨o, ho, hf.id_eq ho⟩

theorem contains_insert (t : Table String Overload) (o : Overload) (id : String) :
    (t.insert o.id o).contains id = true ↔ id = o.id ∨ t.contains id = true := by
  unfold Table.contains
  rw [Table.find?_insert]
  split
  · next h => exact iff_of_true rfl (Or.inl h)
  · next h => exact (or_iff_right h).symm

theorem id_eq_insert {t : Table String Overload}
    (h : ∀ {id : String} {e : Overload}, t.find? id = some e → e.id = id) (o : Overload)
    {id : String} {e : Overload} (he : (t.insert o.id o).find? id = some e) : e.id = id := by
  rw [Table.find?_insert] at he
  split at he
  · next hid => rw [← Option.some.inj he, hid]
  · exact h he

theorem Keyed.replace (hf : f.Keyed) (ho : o.id ∈ f.ordinals) : (f.replace o).Keyed where
  nodup := hf.nodup
  mem_ordinals id := by
    show id ∈ f.ordinals ↔ (f.table.insert o.id o).contains id = true
    rw [contains_insert, ← hf.mem_ordinals]
    exact ⟨Or.inr, fun h => h.elim (fun heq => heq ▸ ho) fun h => h⟩
  id_eq h := id_eq_insert hf.id_eq o h

theorem Keyed.append (hf : f.Keyed) (ho : o.id ∉ f.ordinals) : (f.append o).Keyed where
  nodup := List.nodup_append.mpr ⟨hf.nodup, by simp, fun _ ha _ hb => by
    rw [List.mem_singleton.mp hb]
    exact fun heq => ho (heq ▸ ha)⟩
  mem_ordinals id := by
    show id ∈ f.ordinals ++ [o.id] ↔ (f.table.insert o.id o).contains id = true
    rw [contains_insert, ← hf.mem_ordinals, List.mem_append, List.mem_singleton, or_comm]
  id_eq h := id_eq_insert hf.id_eq o h

/-- What adding an overload can do: nothing, replace the one with its id, or append it. -/
theorem placeAmong_cases {ids : List String} (hids : ∀ id ∈ ids, f.table.contains id = true)
    (h : f.placeAmong o ids = .ok g) :
    g = f ∨ (o.id ∈ ids ∧ g = f.replace o) ∨ (o.id ∉ ids ∧ g = f.append o) := by
  induction ids with
  | nil => exact Or.inr (Or.inr ⟨List.not_mem_nil, (Except.ok.inj h).symm⟩)
  | cons id rest ih =>
    obtain ⟨hid, hrest⟩ := List.forall_mem_cons.mp hids
    obtain ⟨existing, hexisting⟩ := Option.isSome_iff_exists.mp hid
    rw [placeAmong, hexisting] at h
    dsimp only at h
    split at h
    · cases h
    split at h
    · next heq =>
      subst heq
      split at h
      · rw [← Except.ok.inj h]
        split
        · exact Or.inr (Or.inl ⟨List.mem_cons_self, rfl⟩)
        · exact Or.inl rfl
      · cases h
    · next hne =>
      have hmem : o.id ∈ id :: rest ↔ o.id ∈ rest :=
        List.mem_cons.trans (or_iff_right (Ne.symm hne))
      rw [hmem]
      exact ih hrest h

/-- **Adding an overload keeps table and ordinals in agreement.** -/
theorem Keyed.addOverload (hf : f.Keyed) (h : f.addOverload o = .ok g) : g.Keyed := by
  rcases placeAmong_cases (fun id hid => (hf.mem_ordinals id).mp hid) h with
    rfl | ⟨ho, rfl⟩ | ⟨ho, rfl⟩
  · exact hf
  · exact hf.replace ho
  · exact hf.append ho

/-! ## The list of overloads -/

/-- A table looks up other keys as before. -/
theorem filterMap_insert {t : Table String Overload} {ids : List String} (h : o.id ∉ ids) :
    ids.filterMap (t.insert o.id o).find? = ids.filterMap t.find? := by
  refine List.filterMap_congr fun id hid => ?_
  have hne : id ≠ o.id := fun heq => h (heq ▸ hid)
  exact t.find?_insert_ne hne o

theorem overloads_append (ho : o.id ∉ f.ordinals) :
    (f.append o).overloads = f.overloads ++ [o] := by
  show (f.ordinals ++ [o.id]).filterMap (f.table.insert o.id o).find? = _
  rw [List.filterMap_append, filterMap_insert ho, List.filterMap_cons, Table.find?_insert_self]
  rfl

theorem overloads_replace (hf : f.Keyed) {before after : List String}
    (hsplit : f.ordinals = before ++ o.id :: after) :
    (f.replace o).overloads =
      before.filterMap f.table.find? ++ o :: after.filterMap f.table.find? := by
  obtain ⟨-, hafter, hbefore⟩ := List.nodup_append.mp (hsplit ▸ hf.nodup)
  have hnotBefore : o.id ∉ before := fun h => hbefore _ h _ List.mem_cons_self rfl
  show f.ordinals.filterMap (f.table.insert o.id o).find? = _
  rw [hsplit, List.filterMap_append, filterMap_insert hnotBefore, List.filterMap_cons,
    Table.find?_insert_self, filterMap_insert (List.nodup_cons.mp hafter).1]

/-- An overload is compared with the stored overloads as it is with the list of them.  The
induction is on the ordinals that are left. -/
theorem toDecl_placeAmong (hf : f.Keyed) (o : Overload) : ∀ (before after : List String),
    f.ordinals = before ++ after → o.id ∉ before →
    (f.placeAmong o after).map toDecl =
      (FunctionDecl.place f.name o (after.filterMap f.table.find?)).map fun os =>
        { f.toDecl with overloads := before.filterMap f.table.find? ++ os }
  | before, [], hsplit, hbefore => by
    rw [List.append_nil] at hsplit
    have hnew : (f.append o).overloads = before.filterMap f.table.find? ++ [o] := by
      rw [overloads_append (hsplit ▸ hbefore), overloads, hsplit]
    show Except.ok (f.append o).toDecl = .ok _
    rw [toDecl, hnew]
    rfl
  | before, id :: rest, hsplit, hbefore => by
    have hid : id ∈ f.ordinals := hsplit ▸ List.mem_append_right _ List.mem_cons_self
    obtain ⟨existing, hexisting, hown⟩ := hf.exists_of_mem hid
    have hlist : (id :: rest).filterMap f.table.find? =
        existing :: rest.filterMap f.table.find? := by
      rw [List.filterMap_cons, hexisting]
    rw [hlist, placeAmong, hexisting, FunctionDecl.place, hown]
    dsimp only
    by_cases heq : id = o.id
    · -- the overload of this id gives way, or stays as it is
      subst heq
      rw [if_neg fun h => h.1 rfl, if_pos rfl, if_pos rfl]
      split
      · have hlater : (if o.hasImplementation then f.replace o else f).overloads =
            before.filterMap f.table.find? ++
              (if o.hasImplementation then o else existing) :: rest.filterMap f.table.find? := by
          split
          · exact overloads_replace hf hsplit
          · rw [overloads, hsplit, List.filterMap_append, hlist]
        show Except.ok (toDecl _) = .ok _
        rw [toDecl, hlater]
        split <;> rfl
      · rfl
    · rw [if_neg heq]
      by_cases hoverlaps : existing.overlaps o = true
      · rw [if_pos ⟨heq, hoverlaps⟩, if_neg heq, if_pos hoverlaps]
        rfl
      · have hnext := toDecl_placeAmong hf o (before ++ [id]) rest
          (by rw [hsplit, List.append_assoc]; rfl)
          (by rw [List.mem_append, List.mem_singleton]
              exact fun h => h.elim hbefore fun h => heq h.symm)
        rw [if_neg fun h => hoverlaps h.2, if_neg heq, if_neg hoverlaps, hnext]
        cases FunctionDecl.place f.name o (rest.filterMap f.table.find?) with
        | error e => rfl
        | ok os =>
          have hsnoc : (before ++ [id]).filterMap f.table.find? ++ os =
              before.filterMap f.table.find? ++ existing :: os := by
            rw [List.filterMap_append, List.filterMap_cons, hexisting]
            exact List.append_assoc _ _ _
          exact congrArg (fun l => Except.ok { f.toDecl with overloads := l }) hsnoc

/-- **Adding a stored overload is adding it to the list.** -/
theorem toDecl_addOverload (hf : f.Keyed) (o : Overload) :
    (f.addOverload o).map toDecl = f.toDecl.addOverload o :=
  toDecl_placeAmong hf o [] f.ordinals rfl List.not_mem_nil

theorem Keyed.addOverloads (hf : f.Keyed) {os : List Overload} (h : f.addOverloads os = .ok g) :
    g.Keyed := by
  induction os generalizing f with
  | nil => exact Except.ok.inj h ▸ hf
  | cons o os ih =>
    unfold StoredFunction.addOverloads at h
    rw [List.foldlM_cons] at h
    cases hadd : f.addOverload o with
    | error e =>
      rw [hadd] at h
      cases h
    | ok f' =>
      rw [hadd] at h
      exact ih (hf.addOverload hadd) h

theorem toDecl_addOverloads (hf : f.Keyed) (os : List Overload) :
    (f.addOverloads os).map toDecl = f.toDecl.addOverloads os := by
  induction os generalizing f with
  | nil => rfl
  | cons o os ih =>
    unfold StoredFunction.addOverloads FunctionDecl.addOverloads
    rw [List.foldlM_cons, List.foldlM_cons, ← toDecl_addOverload hf o]
    cases hadd : f.addOverload o with
    | error e => rfl
    | ok f' => exact ih (hf.addOverload hadd)

/-- **Merging stored functions is merging the lists.** -/
theorem toDecl_merge (hf : f.Keyed) (g : StoredFunction) :
    (f.merge g).map toDecl = f.toDecl.merge g.toDecl := by
  have hadd := toDecl_addOverloads hf g.overloads
  unfold StoredFunction.merge FunctionDecl.merge
  show (if f.name = g.name then _ else _ : Except DeclarationError StoredFunction).map toDecl =
    if f.name = g.name then f.toDecl.addOverloads g.overloads >>= _ else _
  rw [← hadd]
  split
  · cases f.addOverloads g.overloads with
    | error e => rfl
    | ok merged =>
      show (FunctionDecl.mergeSingleton f.name f.singleton g.singleton >>= _).map toDecl =
        FunctionDecl.mergeSingleton f.name f.singleton g.singleton >>= _
      cases FunctionDecl.mergeSingleton f.name f.singleton g.singleton with
      | error e => rfl
      | ok singleton => rfl
  · rfl

theorem Keyed.merge (hf : f.Keyed) {h : StoredFunction} (hmerge : f.merge g = .ok h) :
    h.Keyed := by
  unfold StoredFunction.merge at hmerge
  split at hmerge
  · cases hadd : f.addOverloads g.overloads with
    | error e =>
      rw [hadd] at hmerge
      cases hmerge
    | ok merged =>
      have hkeyed := hf.addOverloads hadd
      rw [hadd] at hmerge
      cases hsingleton : FunctionDecl.mergeSingleton f.name f.singleton g.singleton with
      | error e =>
        rw [hsingleton] at hmerge
        cases hmerge
      | ok singleton =>
        rw [hsingleton] at hmerge
        rw [← Except.ok.inj hmerge]
        exact ⟨hkeyed.nodup, hkeyed.mem_ordinals, hkeyed.id_eq⟩
  · cases hmerge

end StoredFunction
end CelTyping
