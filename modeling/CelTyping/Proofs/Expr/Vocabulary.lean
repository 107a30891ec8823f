import CelTyping.Container
import CelTyping.Proofs.Expr.Nodes

/-!
# The names that a tree uses

A tree uses names of identifiers, where it has identifiers, chains of selections that spell dotted
names, and message literals.  It uses names of functions where it has calls; a call with a receiver
that spells a name also uses the name of the function in the namespace of the receiver.

A name is not looked up as it stands: the container has candidates for it.  A tree mentions the
candidates of the names it uses (`Expr.Mentions`, `Expr.MentionsFunction`), which are all the full
names that a check of the tree may ask for.
-/

namespace CelTyping

namespace Expr

/-- The names of identifiers that a node uses. -/
def names : Expr → List String
  | struct _ messageName _ => [messageName]
  | e => e.qualifiedName?.toList

/-- The names of functions that a node uses. -/
def functionNames : Expr → List String
  | call _ function target _ =>
    function :: (target.bind qualifiedName?).toList.map fun q => q ++ "." ++ function
  | _ => []

/-- A full name is a candidate for the name of an identifier that a tree uses. -/
def Mentions (e : Expr) (c : Container) (name : String) : Prop :=
  ∃ n ∈ e.nodes, ∃ m ∈ n.names, name ∈ c.candidates m

/-- A full name is a candidate for the name of a function that a tree uses. -/
def MentionsFunction (e : Expr) (c : Container) (name : String) : Prop :=
  ∃ n ∈ e.nodes, ∃ m ∈ n.functionNames, name ∈ c.candidates m

instance (e : Expr) (c : Container) (name : String) : Decidable (e.Mentions c name) :=
  inferInstanceAs (Decidable (∃ n ∈ e.nodes, ∃ m ∈ n.names, name ∈ c.candidates m))

instance (e : Expr) (c : Container) (name : String) : Decidable (e.MentionsFunction c name) :=
  inferInstanceAs (Decidable (∃ n ∈ e.nodes, ∃ m ∈ n.functionNames, name ∈ c.candidates m))

end Expr

/-- Names of identifiers and of functions. -/
structure Vocabulary where
  /-- The names of identifiers. -/
  idents : String → Prop
  /-- The names of functions. -/
  functions : String → Prop

namespace Vocabulary

/-- All names. -/
def all : Vocabulary := ⟨fun _ => True, fun _ => True⟩

/-- The names that a tree uses. -/
def ofExpr (e : Expr) : Vocabulary :=
  ⟨fun m => ∃ n ∈ e.nodes, m ∈ n.names, fun m => ∃ n ∈ e.nodes, m ∈ n.functionNames⟩

/-- The names that a tree uses are in a vocabulary. -/
structure Covers (V : Vocabulary) (e : Expr) : Prop where
  /-- The names of identifiers are. -/
  idents : ∀ n ∈ e.nodes, ∀ m ∈ n.names, V.idents m
  /-- The names of functions are. -/
  functions : ∀ n ∈ e.nodes, ∀ m ∈ n.functionNames, V.functions m

variable {V : Vocabulary} {e : Expr}

theorem covers_all (e : Expr) : all.Covers e := ⟨fun _ _ _ _ => trivial, fun _ _ _ _ => trivial⟩

theorem covers_ofExpr (e : Expr) : (ofExpr e).Covers e :=
  ⟨fun n hn _ hm => ⟨n, hn, hm⟩, fun n hn _ hm => ⟨n, hn, hm⟩⟩

namespace Covers

theorem part (h : V.Covers e) {c : Expr} (hc : c ∈ e.parts) : V.Covers c :=
  ⟨fun n hn => h.idents n (Expr.mem_nodes_of_mem_parts hc hn),
    fun n hn => h.functions n (Expr.mem_nodes_of_mem_parts hc hn)⟩

theorem name (h : V.Covers e) {m : String} (hm : m ∈ e.names) : V.idents m :=
  h.idents e e.mem_nodes_self m hm

theorem function (h : V.Covers e) {m : String} (hm : m ∈ e.functionNames) : V.functions m :=
  h.functions e e.mem_nodes_self m hm

end Covers
end Vocabulary
end CelTyping
