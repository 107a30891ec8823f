import CelTyping.Proofs.Check.Blind
import CelTyping.Proofs.Check.Trace
import CelTyping.Proofs.Env.Sight

/-!
# What a check writes down

A check writes down three sorts of things: the type of a node, the reference of a node, and an error
at a node.  A run is described by the list of these notes in their order.  The tables and the errors
after it are those that one gets by writing down the same notes again (`CheckState.replay`), and so
all that there is to know about them is a matter of the list.

* `contains_types_replay`, `find?_references_replay`: the tables hold what was noted.
* `errors_replay`: an error was noted, or two notes are about one node and differ; the latter does
  not happen where no node is given a type or a reference twice (`Unrepeated`).
* `Noted.trans`: the notes of two runs, one after the other, are those of the first and then those
  of the second.
-/

namespace CelTyping

/-- Something that a check writes down. -/
inductive Note where
  /-- The type of a node. -/
  | type (e : Expr) (t : Ty)
  /-- The reference of a node. -/
  | reference (e : Expr) (r : Reference)
  /-- An error at a node. -/
  | fault (id : NodeId) (fault : Fault)

/-- Two notes about one node differ. -/
def Fault.isConflict : Fault → Bool
  | .conflictingTypes _ _ _ | .conflictingReferences _ _ _ => true
  | _ => false

namespace Note

/-- The node that a note gives a type. -/
def typed? : Note → Option NodeId
  | type e _ => some e.id
  | _ => none

/-- The node that a note gives a reference. -/
def referred? : Note → Option NodeId
  | reference e _ => some e.id
  | _ => none

/-- The nodes that are given types. -/
def typed (notes : List Note) : List NodeId := notes.filterMap typed?

/-- The nodes that are given references. -/
def referred (notes : List Note) : List NodeId := notes.filterMap referred?

/-- A note of an error in one of some places, other than that two notes differ. -/
def FaultIn (P : NodeId → Prop) : Note → Prop
  | fault id f => P id ∧ f.isConflict = false
  | _ => False

variable {notes more : List Note}

@[simp] theorem typed_append : typed (notes ++ more) = typed notes ++ typed more :=
  List.filterMap_append

@[simp] theorem referred_append : referred (notes ++ more) = referred notes ++ referred more :=
  List.filterMap_append

theorem mem_referred_iff {id : NodeId} :
    id ∈ referred notes ↔ ∃ e r, reference e r ∈ notes ∧ e.id = id := by
  unfold referred
  rw [List.mem_filterMap]
  constructor
  · rintro ⟨note, hnote, hid⟩
    cases note with
    | reference e r => exact ⟨e, r, hnote, Option.some.inj hid⟩
    | type e t => exact absurd hid (by simp [referred?])
    | fault id f => exact absurd hid (by simp [referred?])
  · rintro ⟨e, r, hnote, rfl⟩
    exact ⟨_, hnote, rfl⟩

theorem typed_of_faults {P : NodeId → Prop} (h : ∀ note ∈ notes, note.FaultIn P) :
    typed notes = [] := by
  refine List.filterMap_eq_nil_iff.mpr fun note hnote => ?_
  cases note with
  | fault id f => rfl
  | type e t => exact (h _ hnote).elim
  | reference e r => exact (h _ hnote).elim

theorem referred_of_faults {P : NodeId → Prop} (h : ∀ note ∈ notes, note.FaultIn P) :
    referred notes = [] := by
  refine List.filterMap_eq_nil_iff.mpr fun note hnote => ?_
  cases note with
  | fault id f => rfl
  | type e t => exact (h _ hnote).elim
  | reference e r => exact (h _ hnote).elim

end Note

namespace CheckState

/-! ## Writing down notes again -/

/-- Write down a note. -/
def note (s : CheckState) : Note → CheckState
  | .type e t => s.setType e t
  | .reference e r => s.setReference e r
  | .fault id f => s.report id f

/-- Write down notes one after the other. -/
def replay (s : CheckState) (notes : List Note) : CheckState := notes.foldl note s

theorem replay_cons (s : CheckState) (n : Note) (notes : List Note) :
    s.replay (n :: notes) = (s.note n).replay notes := rfl

theorem replay_append (s : CheckState) (notes more : List Note) :
    s.replay (notes ++ more) = (s.replay notes).replay more :=
  List.foldl_append

variable {s t u : CheckState} {notes : List Note}

theorem types_setType (s : CheckState) (e : Expr) (t : Ty) :
    (s.setType e t).types = s.types.insert e.id t := by
  obtain ⟨s', -, -, -, htypes, heq⟩ := s.setType_eq e t
  rw [heq, ← htypes]

theorem types_setReference (s : CheckState) (e : Expr) (r : Reference) :
    (s.setReference e r).types = s.types := by
  obtain ⟨s', -, -, -, htypes, heq⟩ := s.setReference_eq e r
  rw [heq, ← htypes]

theorem references_setType (s : CheckState) (e : Expr) (t : Ty) :
    (s.setType e t).references = s.references := by
  unfold setType
  split
  · split <;> rfl
  · rfl

theorem references_setReference (s : CheckState) (e : Expr) (r : Reference) :
    (s.setReference e r).references = s.references.insert e.id r := by
  unfold setReference
  split
  · split <;> rfl
  · rfl

/-- What is wrong with a type for a node, given the type it had. -/
def typeConflicts (e : Expr) (t : Ty) : Option Ty → List CheckError
  | some old =>
    if old.isExact t then [] else [⟨e.id, .conflictingTypes e.describe old.display t.display⟩]
  | none => []

/-- What is wrong with a reference for a node, given the reference it had. -/
def referenceConflicts (e : Expr) (r : Reference) : Option Reference → List CheckError
  | some old =>
    if old.same r then [] else [⟨e.id, .conflictingReferences e.describe old.describe r.describe⟩]
  | none => []

theorem mem_typeConflicts {e : Expr} {t : Ty} {old : Option Ty} {err : CheckError}
    (h : err ∈ typeConflicts e t old) :
    old.isSome = true ∧ err.id = e.id ∧ err.fault.isConflict = true := by
  unfold typeConflicts at h
  split at h
  · split at h
    · exact absurd h List.not_mem_nil
    · obtain rfl := List.mem_singleton.mp h
      exact ⟨rfl, rfl, rfl⟩
  · exact absurd h List.not_mem_nil

theorem mem_referenceConflicts {e : Expr} {r : Reference} {old : Option Reference}
    {err : CheckError} (h : err ∈ referenceConflicts e r old) :
    old.isSome = true ∧ err.id = e.id ∧ err.fault.isConflict = true := by
  unfold referenceConflicts at h
  split at h
  · split at h
    · exact absurd h List.not_mem_nil
    · obtain rfl := List.mem_singleton.mp h
      exact ⟨rfl, rfl, rfl⟩
  · exact absurd h List.not_mem_nil

theorem errors_setType (s : CheckState) (e : Expr) (t : Ty) :
    (s.setType e t).errors = s.errors ++ typeConflicts e t (s.types.find? e.id) := by
  unfold setType typeConflicts
  cases s.types.find? e.id with
  | none => exact (List.append_nil _).symm
  | some old =>
    cases hexact : old.isExact t with
    | true => simp [hexact]
    | false => simp [hexact, report]

theorem errors_setReference (s : CheckState) (e : Expr) (r : Reference) :
    (s.setReference e r).errors = s.errors ++ referenceConflicts e r (s.references.find? e.id) := by
  unfold setReference referenceConflicts
  cases s.references.find? e.id with
  | none => exact (List.append_nil _).symm
  | some old =>
    cases hsame : old.same r with
    | true => simp [hsame]
    | false => simp [hsame, report]

/-- The errors that a note adds: one that is noted, or a conflict with an earlier note about the
same node. -/
def newErrors (s : CheckState) : Note → List CheckError
  | .type e t => typeConflicts e t (s.types.find? e.id)
  | .reference e r => referenceConflicts e r (s.references.find? e.id)
  | .fault id f => [⟨id, f⟩]

theorem errors_note (s : CheckState) (n : Note) :
    (s.note n).errors = s.errors ++ s.newErrors n := by
  cases n with
  | type e t => exact s.errors_setType e t
  | reference e r => exact s.errors_setReference e r
  | fault id f => rfl

/-- The node of a note had no other note of its sort before. -/
def Fresh (s : CheckState) (n : Note) : Prop :=
  (∀ id ∈ n.typed?, s.types.contains id = false) ∧
    ∀ id ∈ n.referred?, s.references.contains id = false

/-- An error that a note adds is the one that is noted, unless the node had another note before. -/
theorem newErrors_cases {n : Note} {err : CheckError} (h : err ∈ s.newErrors n) :
    n = .fault err.id err.fault ∨ (err.fault.isConflict = true ∧ ¬ s.Fresh n ∧
      (n.typed? = some err.id ∨ n.referred? = some err.id)) := by
  cases n with
  | fault id f =>
    obtain rfl := List.mem_singleton.mp h
    exact Or.inl rfl
  | type e t =>
    obtain ⟨hold, hid, hconflict⟩ := mem_typeConflicts h
    refine Or.inr ⟨hconflict, fun hfresh => ?_, Or.inl (congrArg some hid.symm)⟩
    exact Bool.false_ne_true ((hfresh.1 e.id rfl).symm.trans hold)
  | reference e r =>
    obtain ⟨hold, hid, hconflict⟩ := mem_referenceConflicts h
    refine Or.inr ⟨hconflict, fun hfresh => ?_, Or.inr (congrArg some hid.symm)⟩
    exact Bool.false_ne_true ((hfresh.2 e.id rfl).symm.trans hold)

theorem contains_types_note (s : CheckState) (n : Note) (id : NodeId) :
    (s.note n).types.contains id = true ↔ n.typed? = some id ∨ s.types.contains id = true := by
  cases n with
  | type e t =>
    show (s.setType e t).types.contains id = true ↔ some e.id = some id ∨ _
    rw [types_setType, contains_insert, Option.some_inj, eq_comm]
  | reference e r =>
    show (s.setReference e r).types.contains id = true ↔ none = some id ∨ _
    rw [types_setReference]
    simp
  | fault i f =>
    show s.types.contains id = true ↔ none = some id ∨ _
    simp

theorem find?_references_note {n : Note} {id : NodeId} {r : Reference}
    (h : (s.note n).references.find? id = some r) :
    (∃ e, n = .reference e r ∧ e.id = id) ∨ s.references.find? id = some r := by
  cases n with
  | type e t =>
    have heq : (s.note (.type e t)).references = s.references := s.references_setType e t
    exact Or.inr (heq ▸ h)
  | reference e r' =>
    have heq : (s.note (.reference e r')).references = s.references.insert e.id r' :=
      s.references_setReference e r'
    rw [heq, Table.find?_insert] at h
    split at h
    · next hid =>
      obtain rfl := Option.some.inj h
      exact Or.inl ⟨e, rfl, hid.symm⟩
    · exact Or.inr h
  | fault i f => exact Or.inr h

/-- The nodes with types are those that were given one. -/
theorem contains_types_replay (s : CheckState) (notes : List Note) (id : NodeId) :
    (s.replay notes).types.contains id = true ↔
      s.types.contains id = true ∨ id ∈ Note.typed notes := by
  induction notes generalizing s with
  | nil => simp [replay, Note.typed]
  | cons n rest ih =>
    have hcons : id ∈ Note.typed (n :: rest) ↔ n.typed? = some id ∨ id ∈ Note.typed rest := by
      simp [Note.typed]
    rw [replay_cons, ih, contains_types_note, hcons]
    tauto

/-- A reference in the table was noted. -/
theorem find?_references_replay {id : NodeId} {r : Reference}
    (h : (s.replay notes).references.find? id = some r) :
    s.references.find? id = some r ∨ ∃ e, .reference e r ∈ notes ∧ e.id = id := by
  induction notes generalizing s with
  | nil => exact Or.inl h
  | cons n rest ih =>
    rcases ih h with hbefore | ⟨e, he, hid⟩
    · rcases find?_references_note hbefore with ⟨e, rfl, hid⟩ | hbefore
      · exact Or.inr ⟨e, List.mem_cons_self, hid⟩
      · exact Or.inl hbefore
    · exact Or.inr ⟨e, List.mem_cons_of_mem _ he, hid⟩

/-- No node is given a type twice, and none a reference twice. -/
structure Unrepeated (s : CheckState) (notes : List Note) : Prop where
  /-- The notes give types to different nodes. -/
  typed : (Note.typed notes).Nodup
  /-- The notes give references to different nodes. -/
  referred : (Note.referred notes).Nodup
  /-- These nodes had no types before. -/
  untyped : ∀ id ∈ Note.typed notes, s.types.contains id = false
  /-- These nodes had no references before. -/
  unreferred : ∀ id ∈ Note.referred notes, s.references.contains id = false

theorem Unrepeated.cons {n : Note} (h : s.Unrepeated (n :: notes)) :
    s.Fresh n ∧ (s.note n).Unrepeated notes := by
  obtain ⟨htyped, hreferred, huntyped, hunreferred⟩ := h
  cases n with
  | fault i f => exact ⟨⟨by simp [Note.typed?], by simp [Note.referred?]⟩, htyped, hreferred,
      huntyped, hunreferred⟩
  | type e t =>
    obtain ⟨hnot, htyped⟩ := List.nodup_cons.mp htyped
    obtain ⟨he, huntyped⟩ := List.forall_mem_cons.mp huntyped
    refine ⟨⟨by simpa [Note.typed?] using he, by simp [Note.referred?]⟩, htyped, hreferred,
      fun id hid => ?_, fun id hid => ?_⟩
    · rw [Bool.eq_false_iff, ne_eq, contains_types_note]
      rintro (heq | hold)
      · exact hnot (Option.some.inj heq ▸ hid)
      · exact absurd hold (by simp [huntyped id hid])
    · show (s.setType e t).references.contains id = false
      rw [references_setType]
      exact hunreferred id hid
  | reference e r =>
    obtain ⟨hnot, hreferred⟩ := List.nodup_cons.mp hreferred
    obtain ⟨he, hunreferred⟩ := List.forall_mem_cons.mp hunreferred
    refine ⟨⟨by simp [Note.typed?], by simpa [Note.referred?] using he⟩, htyped, hreferred,
      fun id hid => ?_, fun id hid => ?_⟩
    · show (s.setReference e r).types.contains id = false
      rw [types_setReference]
      exact huntyped id hid
    · show (s.setReference e r).references.contains id = false
      rw [references_setReference, Bool.eq_false_iff, ne_eq, contains_insert]
      rintro (rfl | hold)
      · exact hnot hid
      · exact absurd hold (by simp [hunreferred id hid])

/-- **Where errors come from**: they were noted, or two notes about one node differ. -/
theorem errors_replay {err : CheckError} (h : err ∈ (s.replay notes).errors) :
    err ∈ s.errors ∨ .fault err.id err.fault ∈ notes ∨ (err.fault.isConflict = true ∧
      ¬ s.Unrepeated notes ∧ (err.id ∈ Note.typed notes ∨ err.id ∈ Note.referred notes)) := by
  induction notes generalizing s with
  | nil => exact Or.inl h
  | cons n rest ih =>
    have htyped : ∀ id, n.typed? = some id ∨ id ∈ Note.typed rest →
        id ∈ Note.typed (n :: rest) := by
      simp [Note.typed]
    have hreferred : ∀ id, n.referred? = some id ∨ id ∈ Note.referred rest →
        id ∈ Note.referred (n :: rest) := by
      simp [Note.referred]
    rcases ih h with hbefore | hfault | ⟨hconflict, hrepeated, hid⟩
    · rw [errors_note, List.mem_append] at hbefore
      rcases hbefore with hbefore | hnew
      · exact Or.inl hbefore
      · rcases newErrors_cases hnew with rfl | ⟨hconflict, hstale, hid⟩
        · exact Or.inr (Or.inl List.mem_cons_self)
        · exact Or.inr (Or.inr ⟨hconflict, fun hun => hstale hun.cons.1,
            hid.imp (fun hid => htyped _ (Or.inl hid)) fun hid => hreferred _ (Or.inl hid)⟩)
    · exact Or.inr (Or.inl (List.mem_cons_of_mem _ hfault))
    · exact Or.inr (Or.inr ⟨hconflict, fun hun => hrepeated hun.cons.2,
        hid.imp (fun hid => htyped _ (Or.inr hid)) fun hid => hreferred _ (Or.inr hid)⟩)

/-! ## Runs -/

/-- Two states hold the same types, references and errors. -/
structure SameTables (s t : CheckState) : Prop where
  /-- The types are the same. -/
  types : t.types = s.types
  /-- The references are the same. -/
  references : t.references = s.references
  /-- The errors are the same. -/
  errors : t.errors = s.errors

theorem SameTables.note (h : s.SameTables t) (n : Note) : (s.note n).SameTables (t.note n) where
  types := by
    cases n with
    | type e ty =>
      show (t.setType e ty).types = (s.setType e ty).types
      rw [types_setType, types_setType, h.types]
    | reference e r =>
      show (t.setReference e r).types = (s.setReference e r).types
      rw [types_setReference, types_setReference, h.types]
    | fault id f => exact h.types
  references := by
    cases n with
    | type e ty =>
      show (t.setType e ty).references = (s.setType e ty).references
      rw [references_setType, references_setType, h.references]
    | reference e r =>
      show (t.setReference e r).references = (s.setReference e r).references
      rw [references_setReference, references_setReference, h.references]
    | fault id f => exact h.references
  errors := by
    have hnew : t.newErrors n = s.newErrors n := by
      unfold newErrors
      rw [h.types, h.references]
    rw [errors_note, errors_note, h.errors, hnew]

theorem SameTables.replay (h : s.SameTables t) (notes : List Note) :
    (s.replay notes).SameTables (t.replay notes) := by
  induction notes generalizing s t with
  | nil => exact h
  | cons n rest ih => exact ih (h.note n)

/-- A run from one state to another writes down notes.  It may also change what the type variables
stand for and which identifiers are declared, but not the functions. -/
structure Noted (s : CheckState) (notes : List Note) (t : CheckState) : Prop where
  /-- What was written down are the notes. -/
  tables : (s.replay notes).SameTables t
  /-- The names of functions mean the same. -/
  functions : ∀ h name, t.store.findFunction? h name = s.store.findFunction? h name

theorem Noted.trans {more : List Note} (h : s.Noted notes t) (h' : t.Noted more u) :
    s.Noted (notes ++ more) u where
  tables := by
    have htables := h.tables.replay more
    rw [replay_append]
    exact ⟨h'.tables.types.trans htables.types, h'.tables.references.trans htables.references,
      h'.tables.errors.trans htables.errors⟩
  functions scopes name := (h'.functions scopes name).trans (h.functions scopes name)

/-- A run that leaves the tables and the functions alone writes nothing down. -/
theorem Noted.silent (htypes : t.types = s.types) (hreferences : t.references = s.references)
    (herrors : t.errors = s.errors)
    (hfunctions : ∀ h name, t.store.findFunction? h name = s.store.findFunction? h name) :
    s.Noted [] t :=
  ⟨⟨htypes, hreferences, herrors⟩, hfunctions⟩

end CheckState
end CelTyping
