import CelTyping.Proofs.Check.Independence
import CelTyping.Proofs.Check.Rewriting

/-!
# The tables of a check are about its tree

What a check finds out is kept apart from the tree, in tables by the ids of nodes.  The tables only
speak of the tree: nodes with references have types, types belong to nodes, and errors to nodes or
to initializers of message literals (`side_tables_framed`).

Two nodes of one id share their entries, and are in conflict when these differ.  Where ids are
distinct there are no conflicts, since no step of a check comes back to a node.  This is about all
errors that a check finds (`foundErrors`), those that its report keeps and those that it counts.
-/

namespace CelTyping

section Results

variable (env : Env) (store : Store) (source : Source) (e : Expr)

/-- All errors that a check finds, in the order in which they are found. -/
def foundErrors : List CheckError :=
  ((Checking.checkExpr env e : Checking Expr).run (.start store)).2.errors

theorem check_report :
    (check env store source e).1.report = .ofErrors source (foundErrors env store e) := rfl

theorem contains_check_types (id : NodeId) :
    (check env store source e).1.types.contains id =
      ((Checking.checkExpr env e : Checking Expr).run (.start store)).2.types.contains id := by
  show ((Table.mapValues _ _).find? id).isSome = _
  rw [Table.find?_mapValues, Option.isSome_map]
  rfl

end Results

namespace CheckState.Noted

variable {store : Store} {notes : List Note} {t : CheckState}

/-! ## From the start -/

/-- The nodes with types at the end of a check are those of its notes. -/
theorem contains_types (h : (start store).Noted notes t) (id : NodeId) :
    t.types.contains id = true ↔ id ∈ Note.typed notes := by
  rw [h.tables.types, contains_types_replay]
  exact or_iff_right (by simp [start, Table.contains])

theorem find?_references (h : (start store).Noted notes t) {id : NodeId} {r : Reference}
    (hr : t.references.find? id = some r) : ∃ e, .reference e r ∈ notes ∧ e.id = id := by
  rw [h.tables.references] at hr
  exact (find?_references_replay hr).resolve_left (by simp [start])

theorem errors (h : (start store).Noted notes t) {err : CheckError} (herr : err ∈ t.errors) :
    .fault err.id err.fault ∈ notes ∨ (err.fault.isConflict = true ∧
      ¬ (start store).Unrepeated notes ∧
        (err.id ∈ Note.typed notes ∨ err.id ∈ Note.referred notes)) := by
  rw [h.tables.errors] at herr
  exact (errors_replay herr).resolve_left (by simp [start])

end CheckState.Noted

/-- Notes within a tree of distinct ids are about different nodes. -/
theorem Note.Within.unrepeated {A : Expr → Reference → Prop} {P : NodeId → Prop} {e : Expr}
    {es' : List Expr} {notes : List Note} (h : Note.Within A P [e] es' notes)
    (hids : e.ids.Nodup) (store : Store) : (CheckState.start store).Unrepeated notes := by
  have htyped : (Note.typed notes).Nodup := by
    obtain ⟨ids, hperm, hsub⟩ := h.typed
    rw [List.flatMap_singleton] at hsub
    exact hperm.nodup_iff.mp (hids.sublist hsub)
  exact ⟨htyped, htyped.sublist h.referred, by simp [CheckState.start, Table.contains],
    by simp [CheckState.start, Table.contains]⟩

/-- **The tables of a check are about its tree**: nodes with references have types, types belong to
nodes of the tree, and errors are found at nodes or at initializers of message literals.  If the ids
of the nodes are distinct, no node is found to have two types or two references. -/
theorem side_tables_framed (env : Env) (store : Store) (source : Source) (e : Expr) :
    (∀ id, (check env store source e).1.references.contains id = true →
      (check env store source e).1.types.contains id = true) ∧
    (∀ id, (check env store source e).1.types.contains id = true → id ∈ e.ids) ∧
    (check env store source e).1.report = .ofErrors source (foundErrors env store e) ∧
    (∀ err ∈ foundErrors env store e, e.Place err.id) ∧
    (e.ids.Nodup → ∀ err ∈ foundErrors env store e, err.fault.isConflict = false) := by
  obtain ⟨notes, hnotes, -, hw⟩ := exists_notes env store e
  have htyped : Note.typed notes ⊆ e.ids := by
    have hsub := hw.typed.subset
    rwa [List.flatMap_singleton] at hsub
  refine ⟨fun id hid => ?_, fun id hid => ?_, check_report env store source e, fun err herr => ?_,
    fun hids err herr => ?_⟩
  · obtain ⟨r, hr⟩ := Option.isSome_iff_exists.mp hid
    obtain ⟨n, hn, rfl⟩ := hnotes.find?_references hr
    rw [contains_check_types, hnotes.contains_types]
    exact hw.referred.subset (Note.mem_referred_iff.mpr ⟨n, r, hn, rfl⟩)
  · rw [contains_check_types, hnotes.contains_types] at hid
    exact htyped hid
  · rcases hnotes.errors herr with hfault | ⟨-, -, hid⟩
    · exact (hw.faults _ _ hfault).1
    · have hmem : err.id ∈ e.ids := htyped (hid.elim (fun h => h) fun h => hw.referred.subset h)
      obtain ⟨n, hn, hid⟩ := List.mem_map.mp hmem
      exact ⟨n, hn, Or.inl hid⟩
  · rcases hnotes.errors herr with hfault | ⟨-, hrepeated, -⟩
    · exact (hw.faults _ _ hfault).2
    · exact absurd (hw.unrepeated hids store) hrepeated

/-- A message literal `M{f: x}` next to an optional selection without a name. -/
def strayTree : Expr :=
  .list 1 [.struct 2 "M" [⟨3, "f", .ident 4 "x", false⟩],
    .call 5 Standard.optionalSelect none [.ident 6 "M", .ident 7 "f"]] []

/-- The errors in it are found at an initializer, an identifier and an argument that was not
checked. -/
theorem side_tables_framed_stray :
    strayTree.ids.Nodup ∧
    (foundErrors .ofMessage ⟨#[.empty]⟩ strayTree).map CheckError.id = [4, 3, 7] ∧
    (∀ err ∈ foundErrors .ofMessage ⟨#[.empty]⟩ strayTree, strayTree.Place err.id) ∧
    ∀ err ∈ foundErrors .ofMessage ⟨#[.empty]⟩ strayTree, err.fault.isConflict = false := by
  have hids : strayTree.ids.Nodup := by decide
  obtain ⟨-, -, -, hplaces, hdistinct⟩ :=
    side_tables_framed .ofMessage ⟨#[.empty]⟩ ⟨"", [], .empty⟩ strayTree
  exact ⟨hids, by decide +kernel, hplaces, hdistinct hids⟩

/-- Two nodes of one id may well be in conflict. -/
example : (foundErrors .ofFirst ⟨#[.empty]⟩
    (.list 1 [.const 2 (.int 1), .const 2 (.string "a")] [])).map (·.fault.isConflict) =
      [true] := by
  decide +kernel

end CelTyping
