import CelTyping.Expr.Codec
import CelTyping.Proofs.Document.Json
import CelTyping.Proofs.Expr.Nodes

/-!
# Expression trees read back

A tree that is written as JSON and read again is the same tree, whatever its ids, its literals and
its optional parts, if all of its nodes were set and no literal is a double.  As a text it comes
back only if it is not nested too deep, and one node takes up to four levels.

Writing and reading are the work of a library.  The theory does not look into it: a `TreeFormat` is
any library, and two things are assumed of it.

* `TreeFormat.Tagged`: a node is written as its id and, beside it, its contents under the name of
  their sort; and fields are read by their names, as the nodes declare them.
* `TreeFormat.Bounded`: a document is read from its text if it is nested up to a certain depth, and
  refused if it is nested deeper.

`TreeFormat.standard` is the format of this program, of which both are proved.

* `TreeFormat.Tagged.read_write`: trees are read back from their documents.
* `TreeFormat.Tagged.integral_write`: these have no numbers but integers of 64 bits.
* `TreeFormat.ofText_toText`: trees are read back from their texts up to a depth.
-/

namespace CelTyping

namespace Document

/-! ## Numbers -/

theorem int64?_toInt (i : Int64) : int64? (.int i.toInt) = some i := by
  have hbounds : Int64.minValue.toInt ≤ i.toInt ∧ i.toInt ≤ Int64.maxValue.toInt :=
    ⟨i.minValue_le_toInt, i.toInt_le⟩
  rw [int64?, intBetween?, if_pos hbounds, Option.map_some, Int64.ofInt_toInt]

theorem int32?_toInt (i : Int32) : int32? (.int i.toInt) = some i := by
  have hbounds : Int32.minValue.toInt ≤ i.toInt ∧ i.toInt ≤ Int32.maxValue.toInt :=
    ⟨i.minValue_le_toInt, i.toInt_le⟩
  rw [int32?, intBetween?, if_pos hbounds, Option.map_some, Int32.ofInt_toInt]

theorem uint64?_toNat (i : UInt64) : uint64? (.int i.toNat) = some i := by
  have hlt := i.toNat_lt
  have hsize : UInt64.size = 2 ^ 64 := rfl
  have hbounds : (0 : Int) ≤ i.toNat ∧ (i.toNat : Int) ≤ UInt64.size - 1 := by omega
  rw [uint64?, intBetween?, if_pos hbounds, Option.map_some, Int.toNat_natCast, UInt64.ofNat_toNat]

theorem byte?_toNat (b : UInt8) : byte? (.int b.toNat) = some b := by
  have hlt := b.toNat_lt
  have hbounds : (0 : Int) ≤ b.toNat ∧ (b.toNat : Int) ≤ 255 := by omega
  rw [byte?, intBetween?, if_pos hbounds, Option.map_some, Int.toNat_natCast, UInt8.ofNat_toNat]

/-! ## Lists -/

/-- A list is read back if its items are. -/
theorem listOf_map {α : Type} {decode : Document → Option α} {encode : α → Document} {as : List α}
    (h : ∀ a ∈ as, decode (encode a) = some a) :
    listOf decode (.list (as.map encode)) = some as := by
  show (as.map encode).mapM decode = some as
  induction as with
  | nil => rfl
  | cons a rest ih =>
    obtain ⟨ha, hrest⟩ := List.forall_mem_cons.mp h
    rw [List.map_cons, List.mapM_cons, ha, ih hrest]
    rfl

end Document

open Document

/-! ## Literals -/

namespace Constant

theorem decodeTime_encodeTime (loose : Bool) (seconds : Int64) (nanos : Int32) :
    decodeTime loose (encodeTime seconds nanos) = some (seconds, nanos) := by
  have hseconds := int64?_toInt seconds
  have hnanos := int32?_toInt nanos
  cases loose <;>
    simp [decodeTime, encodeTime, record?, fields?, required, fieldOf, hseconds, hnanos]

/-- **Every literal is read back.** -/
theorem decode_encode (loose : Bool) (c : Constant) : decode loose c.encode = some c := by
  cases c with
  | null => rfl
  | bool b => rfl
  | int i => simp [encode, decode, int64?_toInt]
  | uint u => simp [encode, decode, uint64?_toNat]
  | double d => rfl
  | string s => rfl
  | bytes bs =>
    have hbytes := listOf_map fun b (_ : b ∈ bs) => byte?_toNat b
    simp [encode, decode, hbytes]
  | duration seconds nanos => simp [encode, decode, decodeTime_encodeTime]
  | timestamp seconds nanos => simp [encode, decode, decodeTime_encodeTime]

end Constant

/-! ## Trees -/

namespace Expr

/-- A tree that its document says all about: every node was set, and no literal is a double. -/
def Portable (e : Expr) : Prop :=
  ∀ n ∈ e.nodes, (∀ id, n ≠ .unset id) ∧ ∀ id value, n ≠ .const id (.double value)

theorem Portable.isSet {e : Expr} (h : e.Portable) (id : NodeId) : e ≠ .unset id :=
  (h e (mem_nodes_self e)).1 id

theorem Portable.part {e c : Expr} (h : e.Portable) (hc : c ∈ e.parts) : c.Portable :=
  fun n hn => h n (mem_nodes_of_mem_parts hc hn)

/-- An entry of a map literal as a document, with a way to write trees. -/
def encodeEntry (write : Expr → Document) (e : MapEntry) : Document :=
  .fields [("id", .int e.id.toInt), ("key", write e.key), ("value", write e.value),
    ("optional", .bool e.optional)]

/-- An initializer of a message literal as a document, with a way to write trees. -/
def encodeField (write : Expr → Document) (f : FieldInit) : Document :=
  .fields [("id", .int f.id.toInt), ("field", .text f.field), ("value", write f.value),
    ("optional", .bool f.optional)]

/-- What is written beside the id of a node, with a way to write trees: its contents, under the
name of their sort. -/
def encodeContents (write : Expr → Document) : Expr → String × Document
  | unset _ => ("not_set", .null)
  | const _ value => ("const", value.encode)
  | ident _ name => ("ident", .fields [("name", .text name)])
  | select _ operand field testOnly optional =>
    ("select", .fields [("operand", write operand), ("field", .text field),
      ("test_only", .bool testOnly), ("optional", .bool optional)])
  | call _ function target args =>
    ("call", .fields [("function", .text function), ("target", (target.map write).getD .null),
      ("args", .list (args.map write))])
  | list _ elements optionalIndices =>
    ("list", .fields [("elements", .list (elements.map write)),
      ("optional_indices", .list (optionalIndices.map fun i => .int i.toNat))])
  | map _ entries => ("map", .fields [("entries", .list (entries.map (encodeEntry write)))])
  | struct _ messageName inits =>
    ("struct", .fields [("message_name", .text messageName),
      ("fields", .list (inits.map (encodeField write)))])
  | comprehension _ iterRange iterVar iterVar2 accuVar accuInit loopCondition loopStep result =>
    ("comprehension", .fields [("iter_range", write iterRange), ("iter_var", .text iterVar),
      ("iter_var2", encodeName? iterVar2), ("accu_var", .text accuVar),
      ("accu_init", write accuInit), ("loop_condition", write loopCondition),
      ("loop_step", write loopStep), ("result", write result)])

end Expr

/-! ## Formats -/

/-- A library that writes trees as texts and reads them, by way of documents. -/
structure TreeFormat where
  /-- The document that a tree is written as. -/
  write : Expr → Document
  /-- The tree that a document is read as. -/
  read : Document → Option Expr
  /-- The text of a document. -/
  print : Document → String
  /-- The document that a text stands for. -/
  parse : String → Option Document
  /-- How deep lists and fields may be nested in a text that is read. -/
  depth : Nat

namespace TreeFormat

/-- Nodes are written and read as they are declared. -/
structure Tagged (f : TreeFormat) : Prop where
  /-- A node that was set is written as its id and its contents. -/
  write_eq : ∀ e : Expr, (∀ id, e ≠ .unset id) →
    f.write e = .fields [("id", .int e.id.toInt), e.encodeContents f.write]
  /-- A literal is read by its sort. -/
  read_const : ∀ (id : NodeId) (d : Document) (value : Constant),
    Constant.decode false d = some value →
    f.read (.fields [("id", .int id.toInt), ("const", d)]) = some (.const id value)
  /-- Other contents are read by the names of their fields, in any order and with the defaults of
  those that are missing. -/
  read_contents : ∀ (id : NodeId) (name : String) (body : List (String × Document)) (e : Expr),
    Expr.decodeContents f.read id name body = some e →
    f.read (.fields [("id", .int id.toInt), (name, .fields body)]) = some e

/-- Texts are read up to a depth, as far as their numbers are integers of 64 bits. -/
structure Bounded (f : TreeFormat) : Prop where
  /-- A document is read from its text. -/
  parse_print : ∀ d : Document, d.Integral → d.nesting ≤ f.depth → f.parse (f.print d) = some d
  /-- A text that is nested deeper is refused. -/
  parse_deep : ∀ d : Document, d.Integral → f.depth < d.nesting → f.parse (f.print d) = none

/-- The text of a tree. -/
def toText (f : TreeFormat) (e : Expr) : String := f.print (f.write e)

/-- The tree that a text stands for. -/
def ofText (f : TreeFormat) (text : String) : Option Expr := (f.parse text).bind f.read

end TreeFormat

/-! ## Reading back -/

namespace Expr

theorem decodeEntry_encodeEntry {read : Document → Option Expr} {write : Expr → Document}
    {e : MapEntry} (hkey : read (write e.key) = some e.key)
    (hvalue : read (write e.value) = some e.value) :
    decodeEntry read (encodeEntry write e) = some e := by
  obtain ⟨id, key, value, optional⟩ := e
  simp [decodeEntry, encodeEntry, record?, required, defaulted, fieldOf, int64?_toInt, bool?, hkey,
    hvalue]

theorem decodeField_encodeField {read : Document → Option Expr} {write : Expr → Document}
    {f : FieldInit} (hvalue : read (write f.value) = some f.value) :
    decodeField read (encodeField write f) = some f := by
  obtain ⟨id, field, value, optional⟩ := f
  simp [decodeField, encodeField, record?, required, defaulted, fieldOf, int64?_toInt, text?, bool?,
    hvalue]

theorem orNull_encodeName? (name : Option String) :
    orNull text? (encodeName? name) = some name := by
  cases name <;> rfl

end Expr

namespace TreeFormat

open CelTyping.Expr

variable {f : TreeFormat}

/-- A receiver is told from the lack of one, because no node is written as nothing. -/
theorem Tagged.orNull_target (hf : f.Tagged) {target : Option Expr}
    (hset : ∀ r ∈ target, ∀ id, r ≠ .unset id) (h : ∀ r ∈ target, f.read (f.write r) = some r) :
    orNull f.read ((target.map f.write).getD .null) = some target := by
  cases target with
  | none => rfl
  | some r =>
    have hread := h r rfl
    have hwrite := hf.write_eq r (hset r rfl)
    rw [hwrite] at hread
    show orNull f.read (f.write r) = some (some r)
    rw [hwrite]
    show (f.read _).map some = some (some r)
    rw [hread, Option.map_some]

/-- **A node is read back if the nodes right below it are.** -/
theorem Tagged.read_node (hf : f.Tagged) {e : Expr} (he : e.Portable)
    (h : ∀ c ∈ e.parts, f.read (f.write c) = some c) : f.read (f.write e) = some e := by
  rw [hf.write_eq e he.isSet]
  cases e with
  | unset id => exact absurd rfl (he.isSet id)
  | const id value => exact hf.read_const id _ value (value.decode_encode false)
  | ident id name => exact hf.read_contents id _ _ _ rfl
  | select id operand field testOnly optional =>
    have hoperand := h operand List.mem_cons_self
    refine hf.read_contents id _ _ _ ?_
    simp [decodeContents, required, defaulted, fieldOf, text?, bool?, hoperand]
  | call id function target args =>
    have hreceiver : ∀ r ∈ target, r ∈ (Expr.call id function target args).parts :=
      fun r hr => List.mem_append_left _ (Option.mem_toList.mpr hr)
    have htarget := hf.orNull_target (fun r hr => (he.part (hreceiver r hr)).isSet)
      fun r hr => h r (hreceiver r hr)
    have hargs := listOf_map fun a ha => h a (List.mem_append_right _ ha)
    refine hf.read_contents id _ _ _ ?_
    simp [decodeContents, required, defaulted, fieldOf, text?, htarget, hargs]
  | list id elements optionalIndices =>
    have helements := listOf_map fun a (ha : a ∈ elements) => h a ha
    have hindices := listOf_map fun i (_ : i ∈ optionalIndices) => uint64?_toNat i
    refine hf.read_contents id _ _ _ ?_
    simp [decodeContents, defaulted, fieldOf, helements, hindices]
  | map id entries =>
    have hparts : ∀ a ∈ entries, ∀ c ∈ [a.key, a.value], f.read (f.write c) = some c :=
      fun a ha c hc => h c (List.mem_flatMap.mpr ⟨a, ha, hc⟩)
    have hentries := listOf_map fun a ha =>
      decodeEntry_encodeEntry (hparts a ha _ (by simp)) (hparts a ha _ (by simp))
    refine hf.read_contents id _ _ _ ?_
    simp [decodeContents, defaulted, fieldOf, hentries]
  | struct id messageName fields =>
    have hfields := listOf_map fun g hg =>
      decodeField_encodeField (h g.value (List.mem_map_of_mem (a := g) hg))
    refine hf.read_contents id _ _ _ ?_
    simp [decodeContents, required, defaulted, fieldOf, text?, hfields]
  | comprehension id iterRange iterVar iterVar2 accuVar accuInit loopCondition loopStep result =>
    simp only [parts, List.forall_mem_cons] at h
    obtain ⟨hrange, hinit, hcondition, hstep, hresult, -⟩ := h
    refine hf.read_contents id _ _ _ ?_
    simp [decodeContents, required, defaulted, fieldOf, text?, orNull_encodeName?, hrange, hinit,
      hcondition, hstep, hresult]

/-- **Trees are read back from their documents.** -/
theorem Tagged.read_write (hf : f.Tagged) {e : Expr} (he : e.Portable) :
    f.read (f.write e) = some e := by
  induction e using induct_parts with
  | step e ih => exact hf.read_node he fun c hc => ih c hc (he.part hc)

end TreeFormat

/-! ## Trees as texts -/

namespace Document

theorem integral_int64 (i : Int64) : (Document.int i.toInt).Integral := by
  have hleast := i.le_toInt
  have hgreatest := i.toInt_lt
  exact .int hleast (by omega)

theorem integral_nat {n : Nat} (h : n < 2 ^ 64) : (Document.int n).Integral :=
  .int (by omega) (by omega)

theorem integral_map {α : Type} {encode : α → Document} {as : List α}
    (h : ∀ a ∈ as, (encode a).Integral) : (Document.list (as.map encode)).Integral :=
  .list (List.forall_mem_map.mpr h)

end Document

theorem Constant.integral_encodeTime (seconds : Int64) (nanos : Int32) :
    (encodeTime seconds nanos).Integral := by
  have hleast := nanos.le_toInt
  have hgreatest := nanos.toInt_lt
  have hnanos : (Document.int nanos.toInt).Integral := .int (by omega) (by omega)
  exact .fields (by simp [integral_int64, hnanos])

theorem Constant.integral_encode {c : Constant} (h : ∀ value, c ≠ .double value) :
    c.encode.Integral := by
  cases c with
  | null => exact .text _
  | bool b => exact .fields (by simp)
  | int i => exact .fields (by simp [integral_int64])
  | uint u => exact .fields (by simp [integral_nat u.toNat_lt])
  | double d => exact absurd rfl (h d)
  | string s => exact .fields (by simp)
  | bytes bs =>
    have hbytes : (Document.list (bs.map fun b => .int b.toNat)).Integral :=
      integral_map fun b _ => integral_nat (Nat.lt_trans b.toNat_lt (by decide))
    exact .fields (by simp [hbytes])
  | duration seconds nanos => exact .fields (by simp [integral_encodeTime])
  | timestamp seconds nanos => exact .fields (by simp [integral_encodeTime])

namespace TreeFormat

open CelTyping.Expr

variable {f : TreeFormat}

theorem integral_node (id : NodeId) (name : String) {body : Document} (h : body.Integral) :
    (Document.fields [("id", .int id.toInt), (name, body)]).Integral :=
  .fields (by simp [integral_int64, h])

/-- **The document of a tree has no numbers but integers of 64 bits.** -/
theorem Tagged.integral_write (hf : f.Tagged) {e : Expr} (he : e.Portable) :
    (f.write e).Integral := by
  induction e using induct_parts with
  | step e ih =>
    have hparts : ∀ c ∈ e.parts, (f.write c).Integral := fun c hc => ih c hc (he.part hc)
    rw [hf.write_eq e he.isSet]
    cases e with
    | unset id => exact absurd rfl (he.isSet id)
    | const id value =>
      have hdouble := (he _ (mem_nodes_self _)).2 id
      refine integral_node id _ (Constant.integral_encode fun x hx => hdouble x ?_)
      rw [hx]
    | ident id name => exact integral_node id _ (.fields (by simp))
    | select id operand field testOnly optional =>
      have hoperand := hparts operand List.mem_cons_self
      exact integral_node id _ (.fields (by simp [hoperand]))
    | call id function target args =>
      have htarget : ((target.map f.write).getD .null).Integral := by
        cases target with
        | none => exact .null
        | some r => exact hparts r (List.mem_append_left _ List.mem_cons_self)
      have hargs := integral_map fun a (ha : a ∈ args) => hparts a (List.mem_append_right _ ha)
      exact integral_node id _ (.fields (by simp [htarget, hargs]))
    | list id elements optionalIndices =>
      have helements := integral_map fun a (ha : a ∈ elements) => hparts a ha
      have hindices : (Document.list (optionalIndices.map fun i => .int i.toNat)).Integral :=
        integral_map fun i _ => integral_nat i.toNat_lt
      exact integral_node id _ (.fields (by simp [helements, hindices]))
    | map id entries =>
      have hentry : ∀ a ∈ entries, (encodeEntry f.write a).Integral := by
        intro a ha
        have hboth : ∀ c ∈ [a.key, a.value], (f.write c).Integral :=
          fun c hc => hparts c (List.mem_flatMap.mpr ⟨a, ha, hc⟩)
        exact .fields (by simp [integral_int64, hboth a.key, hboth a.value])
      have hentries := integral_map hentry
      exact integral_node id _ (.fields (by simp [hentries]))
    | struct id messageName fields =>
      have hfield : ∀ g ∈ fields, (encodeField f.write g).Integral := by
        intro g hg
        have hvalue := hparts g.value (List.mem_map_of_mem (a := g) hg)
        exact .fields (by simp [integral_int64, hvalue])
      have hfields := integral_map hfield
      exact integral_node id _ (.fields (by simp [hfields]))
    | comprehension id iterRange iterVar iterVar2 accuVar accuInit loopCondition loopStep result =>
      have hname : (encodeName? iterVar2).Integral := by
        cases iterVar2 with
        | none => exact .null
        | some name => exact .text name
      simp only [parts, List.forall_mem_cons] at hparts
      obtain ⟨hrange, hinit, hcondition, hstep, hresult, -⟩ := hparts
      exact integral_node id _
        (.fields (by simp [hname, hrange, hinit, hcondition, hstep, hresult]))

/-- **Trees are read back from their texts**, if these are not nested too deep, and refused if they
are. -/
theorem ofText_toText (hnodes : f.Tagged) (htexts : f.Bounded) {e : Expr} (he : e.Portable) :
    f.ofText (f.toText e) = if (f.write e).nesting ≤ f.depth then some e else none := by
  have hintegral := hnodes.integral_write he
  unfold ofText toText
  split
  · next hle => rw [htexts.parse_print _ hintegral hle, Option.bind_some, hnodes.read_write he]
  · next hgt => rw [htexts.parse_deep _ hintegral (Nat.lt_of_not_le hgt), Option.bind_none]

end TreeFormat

/-! ## The format of this program -/

namespace Document

theorem heights_le_iff {items : List Document} {n : Nat} :
    heights items ≤ n ↔ ∀ d ∈ items, d.height ≤ n := by
  induction items with
  | nil => simp [heights]
  | cons d rest ih => rw [heights, Nat.max_le, ih, List.forall_mem_cons]

theorem fieldHeights_le_iff {entries : List (String × Document)} {n : Nat} :
    fieldHeights entries ≤ n ↔ ∀ e ∈ entries, e.2.height ≤ n := by
  induction entries with
  | nil => simp [fieldHeights]
  | cons e rest ih => rw [fieldHeights, Nat.max_le, ih, List.forall_mem_cons]

theorem height_pos (d : Document) : 0 < d.height := by
  cases d <;> simp [height]

theorem height_lt_of_mem_list {items : List Document} {d : Document} (hd : d ∈ items) :
    d.height < (Document.list items).height := by
  have hle := heights_le_iff.mp (Nat.le_refl (heights items)) d hd
  rw [height]
  omega

theorem height_lt_of_fields? {d : Document} {entries : List (String × Document)}
    (h : d.fields? = some entries) {e : String × Document} (he : e ∈ entries) :
    e.2.height < d.height := by
  cases d with
  | fields entries' =>
    obtain rfl := Option.some.inj h
    have hle := fieldHeights_le_iff.mp (Nat.le_refl (fieldHeights entries')) e he
    rw [height]
    omega
  | _ => exact nomatch h

theorem height_lt_of_record? {d : Document} {surplus : Bool} {names : List String}
    {entries : List (String × Document)} (h : d.record? surplus names = some entries)
    {e : String × Document} (he : e ∈ entries) : e.2.height < d.height := by
  cases d with
  | fields entries' => exact height_lt_of_fields? (d := .fields entries') h he
  | list items =>
    obtain ⟨-, hzip⟩ := Option.ite_none_right_eq_some.mp h
    obtain rfl := Option.some.inj hzip
    exact height_lt_of_mem_list (List.of_mem_zip he).2
  | _ => exact nomatch h

section Agree

variable {α : Type} {read read' : Document → Option α} {entries : List (String × Document)}

theorem mem_of_fieldOf {name : String} {d : Document} (h : fieldOf entries name = .found d) :
    ∃ e ∈ entries, e.2 = d := by
  unfold fieldOf at h
  split at h
  · exact nomatch h
  · next e he =>
    obtain rfl := Field.found.inj h
    exact ⟨e, List.mem_of_mem_filter (he ▸ List.mem_cons_self), rfl⟩
  · exact nomatch h

theorem required_congr (h : ∀ e ∈ entries, read e.2 = read' e.2) (name : String) :
    required read entries name = required read' entries name := by
  unfold required
  split
  · next d hd =>
    obtain ⟨e, he, rfl⟩ := mem_of_fieldOf hd
    exact h e he
  · rfl

theorem defaulted_congr (h : ∀ e ∈ entries, read e.2 = read' e.2) (default : α) (name : String) :
    defaulted read default entries name = defaulted read' default entries name := by
  unfold defaulted
  split
  · next d hd =>
    obtain ⟨e, he, rfl⟩ := mem_of_fieldOf hd
    exact h e he
  · rfl
  · rfl

theorem orNull_congr {d : Document} (h : read d = read' d) : orNull read d = orNull read' d := by
  cases d <;> simp only [orNull, h]

theorem listOf_congr {d : Document} (h : ∀ x, x.height < d.height → read x = read' x) :
    listOf read d = listOf read' d := by
  cases d with
  | list items =>
    show items.mapM read = items.mapM read'
    have hitems : ∀ x ∈ items, read x = read' x := fun x hx => h x (height_lt_of_mem_list hx)
    clear h
    induction items with
    | nil => rfl
    | cons x rest ih =>
      obtain ⟨hx, hrest⟩ := List.forall_mem_cons.mp hitems
      rw [List.mapM_cons, List.mapM_cons, hx, ih hrest]
  | _ => rfl

end Agree

end Document

namespace Constant

theorem map_decodeTime_true {d : Document} {make : Int64 × Int32 → Constant} {value : Constant}
    (h : (decodeTime false d).map make = some value) :
    (decodeTime true d).map make = some value := by
  cases d with
  | fields entries => exact h
  | _ => exact nomatch h

theorem isNothing_true {d : Document} (h : isNothing false d = true) : isNothing true d = true := by
  unfold isNothing at h ⊢
  split at h <;> simp_all

/-- What is a literal when it is read strictly is the same literal when it is read loosely. -/
theorem decode_true {d : Document} {value : Constant} (h : decode false d = some value) :
    decode true d = some value := by
  unfold decode at h ⊢
  split at h
  · exact h
  · next name d => grind [map_decodeTime_true, isNothing_true]
  · exact nomatch h

end Constant

namespace Expr

theorem encodeAll_eq (es : List Expr) : encodeAll es = es.map encode := by
  induction es with
  | nil => rfl
  | cons e rest ih => rw [encodeAll, ih, List.map_cons]

theorem encodeEntries_eq (entries : List MapEntry) :
    encodeEntries entries = entries.map (encodeEntry encode) := by
  induction entries with
  | nil => rfl
  | cons e rest ih =>
    obtain ⟨id, key, value, optional⟩ := e
    rw [encodeEntries, ih, List.map_cons]
    rfl

theorem encodeFields_eq (fields : List FieldInit) :
    encodeFields fields = fields.map (encodeField encode) := by
  induction fields with
  | nil => rfl
  | cons f rest ih =>
    obtain ⟨id, field, value, optional⟩ := f
    rw [encodeFields, ih, List.map_cons]
    rfl

theorem encodeTarget_eq (target : Option Expr) :
    encodeTarget target = (target.map encode).getD .null := by
  cases target <;> rfl

theorem encode_eq (e : Expr) :
    e.encode = .fields [("id", .int e.id.toInt), e.encodeContents encode] := by
  cases e <;>
    simp [encode, encodeContents, Expr.id, encodeAll_eq, encodeEntries_eq, encodeFields_eq,
      encodeTarget_eq]

theorem decodeEntry_congr {read read' : Document → Option Expr} {d : Document}
    (h : ∀ x, x.height < d.height → read x = read' x) :
    decodeEntry read d = decodeEntry read' d := by
  refine Option.bind_congr fun entries hentries => ?_
  have hread := required_congr fun e he => h e.2 (height_lt_of_record? hentries he)
  simp only [hread]

theorem decodeField_congr {read read' : Document → Option Expr} {d : Document}
    (h : ∀ x, x.height < d.height → read x = read' x) :
    decodeField read d = decodeField read' d := by
  refine Option.bind_congr fun entries hentries => ?_
  have hread := required_congr fun e he => h e.2 (height_lt_of_record? hentries he)
  simp only [hread]

/-- Contents are read alike by readers that agree on what is inside them. -/
theorem decodeContents_congr {read read' : Document → Option Expr} {id : NodeId} {name : String}
    {body : List (String × Document)}
    (h : ∀ x, x.height ≤ fieldHeights body → read x = read' x) :
    decodeContents read id name body = decodeContents read' id name body := by
  have hheight : ∀ e ∈ body, e.2.height ≤ fieldHeights body :=
    fieldHeights_le_iff.mp (Nat.le_refl _)
  have hbelow : ∀ e ∈ body, ∀ x : Document, x.height < e.2.height → read x = read' x :=
    fun e he x hx => h x (Nat.le_trans (Nat.le_of_lt hx) (hheight e he))
  have hread := required_congr fun e he => h e.2 (hheight e he)
  have htarget := defaulted_congr fun e he => orNull_congr (h e.2 (hheight e he))
  have hlist := defaulted_congr fun e he => listOf_congr (hbelow e he)
  have hentries := defaulted_congr fun e (he : e ∈ body) =>
    listOf_congr fun x hx => decodeEntry_congr fun y hy => hbelow e he y (Nat.lt_trans hy hx)
  have hfields := defaulted_congr fun e (he : e ∈ body) =>
    listOf_congr fun x hx => decodeField_congr fun y hy => hbelow e he y (Nat.lt_trans hy hx)
  simp only [decodeContents, hread, htarget, hlist, hentries, hfields]

/-- Reading is not cut short by a depth that suffices for the document. -/
theorem decodeWithin_congr {allowUnset : Bool} {m n : Nat} {d : Document} (hm : d.height ≤ m)
    (hn : d.height ≤ n) : decodeWithin allowUnset m d = decodeWithin allowUnset n d := by
  induction m generalizing n d with
  | zero => exact absurd hm (Nat.not_le_of_lt d.height_pos)
  | succ m ih =>
    obtain ⟨n, rfl⟩ : ∃ k, n = k + 1 := ⟨n - 1, by have := d.height_pos; omega⟩
    simp only [decodeWithin, Option.bind_eq_bind]
    refine Option.bind_congr fun entries hentries => Option.bind_congr fun id _ =>
      Option.bind_congr fun node hnode => ?_
    split
    · rfl
    split
    · rfl
    -- The readers agree on the documents in the contents, which have fewer levels.
    refine Option.bind_congr fun body hbody => decodeContents_congr fun x hx => ?_
    have hheight := height_lt_of_fields? hentries (List.mem_of_find?_eq_some hnode)
    have hbelow : fieldHeights body ≤ node.2.height - 1 :=
      fieldHeights_le_iff.mpr fun e he => Nat.le_sub_one_of_lt (height_lt_of_record? hbody he)
    exact ih (by omega) (by omega)

theorem decode_const {id : NodeId} {d : Document} {value : Constant}
    (h : Constant.decode true d = some value) :
    decode false (.fields [("id", .int id.toInt), ("const", d)]) = some (.const id value) := by
  rw [decode, decodeWithin_congr (Nat.le_refl _) (Nat.le_succ _)]
  simp [decodeWithin, fields?, required, fieldOf, int64?_toInt, contentNames, h]

/-- The names of contents other than a literal. -/
theorem name_of_decodeContents {read : Document → Option Expr} {id : NodeId} {name : String}
    {body : List (String × Document)} {e : Expr} (h : decodeContents read id name body = some e) :
    name ∈ contentNames ∧ name ≠ "const" := by
  unfold decodeContents at h
  split_ifs at h
  all_goals subst name; decide

/-- A node other than a literal is read by its contents. -/
theorem decode_node {id : NodeId} {name : String} {body : List (String × Document)} {e : Expr}
    (h : decodeContents (decode false) id name body = some e) :
    decode false (.fields [("id", .int id.toInt), (name, .fields body)]) = some e := by
  obtain ⟨hname, hconst⟩ := name_of_decodeContents h
  have hid : name ≠ "id" := by
    rintro rfl
    exact absurd hname (by decide)
  have hunset : name ≠ "not_set" := by
    rintro rfl
    exact absurd hname (by decide)
  have hheight : fieldHeights body ≤
      (Document.fields [("id", .int id.toInt), (name, .fields body)]).height := by
    simp only [height, fieldHeights]
    omega
  rw [decode, decodeWithin_congr (Nat.le_refl _) (Nat.le_succ _)]
  generalize Document.height _ = depth at hheight
  have hcontents : decodeContents (decodeWithin false depth) id name body = some e :=
    (decodeContents_congr fun x hx =>
      decodeWithin_congr (Nat.le_trans hx hheight) (Nat.le_refl _)).trans h
  simp [decodeWithin, fields?, required, fieldOf, int64?_toInt, hid, hunset, hconst, hname, record?,
    show "id" ∉ contentNames by decide, hcontents]

end Expr

namespace TreeFormat

/-- The format that this program has. -/
def standard : TreeFormat where
  write := Expr.encode
  read := Expr.decode false
  print := Json.compact
  parse := Json.parse
  depth := Json.greatestDepth

theorem tagged_standard : standard.Tagged where
  write_eq e _ := e.encode_eq
  read_const _ _ _ h := Expr.decode_const (Constant.decode_true h)
  read_contents _ _ _ _ h := Expr.decode_node h

theorem bounded_standard : standard.Bounded where
  parse_print _ hd hle := (Json.parse_compact hd).trans (if_pos hle)
  parse_deep _ hd hlt := (Json.parse_compact hd).trans (if_neg (Nat.not_le_of_lt hlt))

end TreeFormat

/-! ## Trees as JSON -/

/-- **Trees are read back from their JSON form.**  Of every library that writes and reads nodes as
they are declared, and texts up to some depth: a tree whose nodes were all set and in which no
literal is a double is read back from its document; and it is read back from its text, if lists and
fields are nested at most to that depth in it, while a text that is nested deeper is refused. -/
theorem tree_reads_back {f : TreeFormat} (hnodes : f.Tagged) (htexts : f.Bounded) {e : Expr}
    (he : ∀ n ∈ e.nodes, (∀ id, n ≠ .unset id) ∧ ∀ id value, n ≠ .const id (.double value)) :
    f.read (f.write e) = some e ∧
    f.ofText (f.toText e) = if (f.write e).nesting ≤ f.depth then some e else none :=
  ⟨hnodes.read_write he, TreeFormat.ofText_toText hnodes htexts he⟩

/-- A fold with two variables over a map literal, with literals at the ends of their ranges, texts
that are escaped, and an optional element. -/
def foldOfExtremes : Expr :=
  .comprehension (-1)
    (.map 2 [⟨3, .const 4 (.bytes [0, 255]), .const 5 (.int Int64.minValue), true⟩]) "k" (some "v")
    "acc"
    (.struct 6 "acme.M" [⟨7, "f", .const 8 (.timestamp Int64.maxValue Int32.minValue), false⟩])
    (.select 9 (.ident 10 "acc") "\n\x22\\" true false)
    (.call 11 "f" (some (.const 12 .null)) [.const 13 (.uint 18446744073709551615)])
    (.list 14 [.call 15 "g" none []] [0])

/-- The fold is read back from its text. -/
theorem fold_reads_back :
    TreeFormat.standard.Tagged ∧ TreeFormat.standard.Bounded ∧
    (∀ n ∈ foldOfExtremes.nodes,
      (∀ id, n ≠ .unset id) ∧ ∀ id value, n ≠ .const id (.double value)) ∧
    Expr.decode false foldOfExtremes.encode = some foldOfExtremes ∧
    (Json.parse (Json.compact foldOfExtremes.encode)).bind (Expr.decode false) =
      some foldOfExtremes := by
  have hnodes := TreeFormat.tagged_standard
  have htexts := TreeFormat.bounded_standard
  have he : ∀ n ∈ foldOfExtremes.nodes,
      (∀ id, n ≠ .unset id) ∧ ∀ id value, n ≠ .const id (.double value) := by
    simp [foldOfExtremes, Expr.nodes, Expr.nodesOfAll, Expr.nodesOfTarget, Expr.nodesOfEntries,
      Expr.nodesOfFields]
  obtain ⟨hdocument, htext⟩ := tree_reads_back hnodes htexts he
  have hnesting : foldOfExtremes.encode.nesting ≤ 127 := by decide +kernel
  exact ⟨hnodes, htexts, he, hdocument, htext.trans (if_pos hnesting)⟩

/-- So many negations of a number. -/
def negations : Nat → Expr
  | 0 => .const 0 (.int 1)
  | n + 1 => .call (Int64.ofNat (n + 1)) "-_" none [negations n]

theorem portable_negations (n : Nat) : (negations n).Portable := by
  induction n with
  | zero =>
    intro e he
    obtain rfl := List.mem_singleton.mp he
    simp
  | succ n ih =>
    intro e he
    rcases List.mem_cons.mp he with rfl | he
    · simp
    · exact ih e (by simpa [Expr.nodesOfTarget, Expr.nodesOfAll] using he)

/-- A negation takes three levels. -/
theorem TreeFormat.Tagged.nesting_negations {f : TreeFormat} (hf : f.Tagged) (n : Nat) :
    (f.write (negations n)).nesting = 3 * n + 2 := by
  induction n with
  | zero =>
    rw [hf.write_eq _ (by simp [negations])]
    rfl
  | succ n ih =>
    rw [hf.write_eq _ (by simp [negations])]
    simp only [negations, Expr.encodeContents, Document.nesting, Document.nestings,
      Document.fieldNestings, List.map_cons, List.map_nil, Option.map_none, Option.getD_none, ih]
    omega

/-- **A tree that is nested too deep is written, but not read back.**  A library that goes down 127
levels reads 42 negations back from their document and refuses their text. -/
theorem negations_refused :
    (TreeFormat.standard.Tagged ∧ TreeFormat.standard.Bounded ∧
      TreeFormat.standard.depth = 127) ∧
    (∀ n ∈ (negations 42).nodes,
      (∀ id, n ≠ .unset id) ∧ ∀ id value, n ≠ .const id (.double value)) ∧
    ∀ f : TreeFormat, f.Tagged → f.Bounded → f.depth = 127 →
      f.read (f.write (negations 42)) = some (negations 42) ∧
      f.ofText (f.toText (negations 42)) = none := by
  have hportable := portable_negations 42
  refine ⟨⟨TreeFormat.tagged_standard, TreeFormat.bounded_standard, rfl⟩, hportable, ?_⟩
  intro f hnodes htexts hdepth
  refine ⟨hnodes.read_write hportable, ?_⟩
  rw [TreeFormat.ofText_toText hnodes htexts hportable, hnodes.nesting_negations, hdepth]
  rfl

end CelTyping
