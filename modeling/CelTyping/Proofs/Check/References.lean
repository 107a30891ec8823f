import CelTyping.Proofs.Check.SideTables

/-!
# References go with the tree and the declarations

A check notes to which declaration the name of a node refers, and rewrites the node to go with it.
When the ids of the nodes are distinct, the entry of an id in the table of references was made for
the node of this id, and so it goes with what has become of it (`accords_of_find?`).

For an environment that was built by adding declarations this gives what an evaluator relies on: the
name of an identifier is that of its reference, and a call is left with overloads of a function that
the environment declares, in the order of their declaration, none of them disabled and all of the
call's style (`references_agree`).
-/

namespace CelTyping

open scoped List

/-- A selection of overloads of a function, for calls of one style, when overloads have different
ids. -/
theorem Reference.Selects.of_usable {r : Reference} {env : Env} {f : FunctionDecl} {isMember : Bool}
    (h : r.Selects (Checking.usable env f isMember)) (hids : f.ids.Nodup) :
    r.overloads <+ f.ids ∧ ∀ o ∈ f.overloads, o.id ∈ r.overloads →
      env.isOverloadDisabled o.id = false ∧ o.isMember = isMember := by
  refine ⟨(h.mono List.filter_sublist).order, fun o ho hid => ?_⟩
  obtain ⟨p, hp, hpid⟩ := List.mem_map.mp (h.order.subset hid)
  obtain ⟨hpf, husable⟩ := List.mem_filter.mp hp
  -- the overload that was used is the only one of its id
  obtain rfl : p = o := List.inj_on_of_nodup_map hids hpf ho hpid
  simpa using husable

/-- Where ids are distinct, a reference goes with the node that it is found for. -/
theorem accords_of_find? {env : Env} {store : Store} {source : Source} {e n : Expr} {r : Reference}
    (hids : e.ids.Nodup) (hn : n ∈ (check env store source e).1.expr.nodes)
    (hr : (check env store source e).1.references.find? n.id = some r) :
    n.Accords store env r := by
  obtain ⟨notes, hnotes, hrewrites, hw⟩ := exists_notes env store e
  obtain ⟨noted, hnoted, hid⟩ := hnotes.find?_references hr
  obtain ⟨m, hm, hmid, haccords⟩ := hw.accords noted r hnoted
  rw [List.flatMap_singleton] at hm
  have hdistinct := hids.sublist hrewrites.ids_sublist
  obtain rfl : m = n := List.inj_on_of_nodup_map hdistinct hm hn (hmid.trans hid)
  exact haccords

/-- **References agree with the tree and with the declarations.**  Let an environment be built by
adding declarations, and the ids of a tree be distinct.  In what a check gives back, an identifier
with a reference has the name of the reference.  A call with a reference, other than an optional
selection, has overloads of a function that the environment declares, which is the one that the call
names if there is no receiver: at least one, none twice, in the order of their declaration, none of
them disabled, and members if and only if there is a receiver. -/
theorem references_agree {env : Env} {store : Store} (hbuilt : env.Built store) (source : Source)
    {e : Expr} (hids : e.ids.Nodup) :
    (∀ id name r, .ident id name ∈ (check env store source e).1.expr.nodes →
      (check env store source e).1.references.find? id = some r → r.name = name) ∧
    (∀ id function target args r,
      .call id function target args ∈ (check env store source e).1.expr.nodes →
      function ≠ Standard.optionalSelect →
      (check env store source e).1.references.find? id = some r →
      r.overloads ≠ [] ∧ r.overloads.Nodup ∧
      ∃ f, store.findFunction? env.scopes f.name = some f ∧ (target = none → f.name = function) ∧
        r.overloads <+ f.ids ∧ ∀ o ∈ f.overloads, o.id ∈ r.overloads →
          env.isOverloadDisabled o.id = false ∧ o.isMember = target.isSome) := by
  refine ⟨fun id name r hn hr => accords_of_find? hids hn hr,
    fun id function target args r hn hfunction hr => ?_⟩
  obtain ⟨f, ⟨name, hfound⟩, hname, hselects⟩ :=
    (accords_of_find? hids hn hr).resolve_left hfunction
  obtain ⟨rfl, hnodup⟩ := hbuilt.tidy.2 name f hfound
  exact ⟨hselects.nonempty, hselects.nodup, f, hfound, hname, hselects.of_usable hnodup⟩

/-- The node and the function of a call with a receiver. -/
def Expr.member? : Expr → Option (NodeId × String)
  | .call id function (some _) _ => some (id, function)
  | _ => none

theorem Expr.eq_of_member? {e : Expr} {id : NodeId} {function : String}
    (h : e.member? = some (id, function)) :
    ∃ receiver args, e = .call id function (some receiver) args := by
  unfold member? at h
  split at h
  · next receiver args =>
    obtain ⟨rfl, rfl⟩ := Prod.mk.inj (Option.some.inj h)
    exact ⟨receiver, args, rfl⟩
  · cases h

/-- A way to put together a function `size`, of values of an abstract type `uuid`. -/
def sizeOfUuid : Construction := .add (.new "size") (.member "uuid_size" [.abstract "uuid" []] .int)

/-- The standard environment with an identifier `d` of any type and one more overload of `size`. -/
def Env.ofDynamic : Env × Store :=
  let (env, store) := Env.standard .empty .root Registry.empty.toProvider .standard
  let (env, store, _) := env.addIdents store [] [.ofType "d" .dyn]
  let (env, store, _) := env.addFunctions store [] [sizeOfUuid.build]
  (env, store)

/-- The call `d.size()` keeps its receiver and may be a call of any member of `size`, in the order
of their declaration, but not of an overload of `size` that takes an argument instead. -/
theorem references_agree_size :
    Env.ofDynamic.1.Built Env.ofDynamic.2 ∧
    (Expr.call 1 "size" (some (.ident 2 "d")) []).ids.Nodup ∧
    ((check Env.ofDynamic.1 Env.ofDynamic.2 ⟨"", [], .empty⟩
      (.call 1 "size" (some (.ident 2 "d")) [])).1.references.find? 1).map Reference.overloads =
        some ["bytes_size", "list_size", "map_size", "string_size", "uuid_size"] ∧
    ∃ f, Env.ofDynamic.2.findFunction? Env.ofDynamic.1.scopes f.name = some f ∧
      ["bytes_size", "list_size", "map_size", "string_size", "uuid_size"] <+ f.ids ∧
      ∀ o ∈ f.overloads,
        o.id ∈ ["bytes_size", "list_size", "map_size", "string_size", "uuid_size"] →
          Env.ofDynamic.1.isOverloadDisabled o.id = false ∧ o.isMember = true := by
  have hbuilt : Env.ofDynamic.1.Built Env.ofDynamic.2 := by
    have hstandard := Env.built_standard .empty .root Registry.empty.toProvider .standard
    have hids : ∀ f ∈ [sizeOfUuid.build], f.ids.Nodup :=
      List.forall_mem_singleton.mpr (Env.nodup_ids_build sizeOfUuid)
    unfold Env.ofDynamic
    -- nothing is to be evaluated here
    generalize Env.standard .empty .root Registry.empty.toProvider .standard = base at hstandard
    generalize [sizeOfUuid.build] = fs at hids
    obtain ⟨env, store⟩ := base
    have hadded := hstandard.addIdents [] [.ofType "d" .dyn]
    dsimp only at hadded ⊢
    generalize env.addIdents store [] [.ofType "d" .dyn] = added at hadded ⊢
    obtain ⟨env, store, _⟩ := added
    exact hadded.addFunctions [] hids
  have hids : (Expr.call 1 "size" (some (.ident 2 "d")) []).ids.Nodup := by decide
  obtain ⟨-, hcalls⟩ := references_agree hbuilt ⟨"", [], .empty⟩ hids
  obtain ⟨hmember, hoverloads⟩ :
      (check Env.ofDynamic.1 Env.ofDynamic.2 ⟨"", [], .empty⟩
        (.call 1 "size" (some (.ident 2 "d")) [])).1.expr.member? = some (1, "size") ∧
      ((check Env.ofDynamic.1 Env.ofDynamic.2 ⟨"", [], .empty⟩
        (.call 1 "size" (some (.ident 2 "d")) [])).1.references.find? 1).map Reference.overloads =
          some ["bytes_size", "list_size", "map_size", "string_size", "uuid_size"] := by
    decide +kernel
  obtain ⟨r, hr, heq⟩ := Option.map_eq_some_iff.mp hoverloads
  obtain ⟨receiver, args, hcall⟩ := Expr.eq_of_member? hmember
  obtain ⟨-, -, f, hf, -, horder, hstyle⟩ := hcalls 1 "size" (some receiver) args r
    (hcall.symm ▸ Expr.mem_nodes_self _) (by decide) hr
  rw [heq] at horder hstyle
  exact ⟨hbuilt, hids, hoverloads, f, hf, horder, hstyle⟩

end CelTyping
