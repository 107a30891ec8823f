import CelTyping.Proofs.Unification.Growth

/-!
# What unification leaves alone

The parameters *in reach* of two types are those that occur in one of them and, with every bound
one, those that occur in what it is bound to.  Unification of the two types is confined to them:
the mapping it leaves says of all other parameters what it said before, and what it binds a
parameter in reach to mentions parameters in reach only (`unifyWithin_changesWithin`).  This holds
of a failed attempt too, whose bindings stay behind in the mapping, and it is measured with the
mapping of the beginning: nothing that is bound on the way brings a parameter into reach.

* `ChangesWithin`: what it means for a change of a mapping to be confined to a set of parameters.
* `Grows.changesWithin`: growing within the types over a set of parameters is confined to the set.
-/

namespace CelTyping

/-- All type parameters that occur in a type belong to a set. -/
def Ty.MentionsOnly (R : String → Prop) (t : Ty) : Prop := ∀ p, t.Mentions p → R p

namespace Mapping

variable {R : String → Prop} {m m' : Mapping} {a b : Ty}

/-! ## Changes confined to a set of parameters -/

/-- One mapping becomes another by a change that is confined to a set of parameters. -/
structure ChangesWithin (R : String → Prop) (m m' : Mapping) : Prop where
  /-- Outside the set nothing is bound, bound anew or released. -/
  outside : ∀ p, ¬ R p → m'.bindings.find? p = m.bindings.find? p
  /-- Inside the set nothing is released either. -/
  kept : ∀ p, (m.bindings.find? p).isSome → (m'.bindings.find? p).isSome
  /-- What stands for a parameter of the set mentions parameters of the set only. -/
  inside : ∀ p t, R p → m'.bindings.find? p = some t → t.MentionsOnly R

/-- A set of parameters that holds, with every bound parameter, those of the bound type. -/
def Holds (m : Mapping) (R : String → Prop) : Prop := ∀ p q, R p → m.Leads p q → R q

theorem Holds.closed (h : m.Holds R) : m.Closed (Ty.MentionsOnly R) := by
  intro t c ht hdown p hp
  cases hdown with
  | param _ hc => exact ht p (hp.of_mem_params hc)
  | bound hpar hb => exact h t.key p (ht t.key (Ty.mentions_key hpar)) ⟨c, hb, hp⟩

/-- **Growing within the types over a set of parameters is confined to the set.** -/
theorem Grows.changesWithin (hR : m.Holds R) (h : Grows (Ty.MentionsOnly R) m m') :
    m.ChangesWithin R m' := by
  induction h with
  | refl => exact ⟨fun _ _ => rfl, fun _ hp => hp, fun p t hp hb q hq => hR p q hp ⟨t, hb, hq⟩⟩
  | @bind m₁ p t _ hp hpar ht _ ih =>
    have hkey : R p.key := hp p.key (Ty.mentions_key hpar)
    constructor
    · intro q hq
      have hne : q ≠ p.key := fun heq => hq (heq ▸ hkey)
      rw [bindings_find?_add, if_neg hne]
      exact ih.outside q hq
    · intro q hq
      rw [bindings_find?_add]
      split
      · rfl
      · exact ih.kept q hq
    · intro q u hq hb
      rw [bindings_find?_add] at hb
      split at hb
      · exact Option.some.inj hb ▸ ht
      · exact ih.inside q u hq hb

/-! ## The parameters in reach -/

/-- A parameter is in reach of one of two types. -/
def InReach (m : Mapping) (a b : Ty) (p : String) : Prop := m.Reaches a p ∨ m.Reaches b p

theorem Reaches.of_leads {p q : String} (h : m.Reaches a p) (hpq : m.Leads p q) :
    m.Reaches a q := by
  obtain ⟨r, hr, hrp⟩ := h
  exact ⟨r, hr, hrp.tail hpq⟩

theorem holds_inReach (m : Mapping) (a b : Ty) : m.Holds (m.InReach a b) :=
  fun _ _ hp hpq => hp.imp (fun h => h.of_leads hpq) fun h => h.of_leads hpq

/-- Unification changes nothing but the parameters in reach, with any bound on the depth. -/
theorem unifyWithin_changesWithin {d : Nat} {r : Bool}
    (h : unifyWithin d m a b = some (r, m')) : m.ChangesWithin (m.InReach a b) m' := by
  have hR := holds_inReach m a b
  have ha : a.MentionsOnly (m.InReach a b) := fun _ hp => Or.inl (Reaches.of_mentions hp)
  have hb : b.MentionsOnly (m.InReach a b) := fun _ hp => Or.inr (Reaches.of_mentions hp)
  exact (unifyWithin_confined _ d m a b r m' hR.closed ha hb h).changesWithin hR

/-- A mapping that binds `X` to lists of `Y`. -/
def unrelated : Mapping := empty.add (.param "X") (.list (.param "Y"))

end Mapping
end CelTyping
