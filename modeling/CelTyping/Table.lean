/-!
# Tables

A table is a finite association from keys to values, kept as a list of entries.  A key that is
already present keeps its place when it is given a new value, and a new key goes to the end, so
the entries of a table stand in the order in which their keys first appeared and every table
built from `empty` by `insert` lists a key once.

The checker keeps everything it looks up by name or by node in tables: substitutions, scope
groups, aliases, message types, and the types and references it records.
-/

namespace CelTyping

/-- A finite association from keys to values. -/
structure Table (κ ν : Type) where
  /-- The entries, in the order in which their keys first appeared. -/
  entries : List (κ × ν)

namespace Table

variable {κ ν : Type}

/-- The table without entries. -/
def empty : Table κ ν := ⟨[]⟩

instance : Inhabited (Table κ ν) := ⟨empty⟩

/-- The keys, in order. -/
def keys (t : Table κ ν) : List κ := t.entries.map Prod.fst

/-- The values, in the order of their keys. -/
def values (t : Table κ ν) : List ν := t.entries.map Prod.snd

/-- The number of entries. -/
def size (t : Table κ ν) : Nat := t.entries.length

/-- Whether the table has no entry. -/
def isEmpty (t : Table κ ν) : Bool := t.entries.isEmpty

/-- Apply a function to every value. -/
def mapValues {μ : Type} (f : ν → μ) (t : Table κ ν) : Table κ μ :=
  ⟨t.entries.map fun e => (e.1, f e.2)⟩

variable [DecidableEq κ]

/-- The first value that a list of entries gives to a key. -/
def lookup (k : κ) : List (κ × ν) → Option ν
  | [] => none
  | (k', v) :: rest => if k = k' then some v else lookup k rest

/-- The value of a key. -/
def find? (t : Table κ ν) (k : κ) : Option ν := lookup k t.entries

/-- Whether the key has a value. -/
def contains (t : Table κ ν) (k : κ) : Bool := (t.find? k).isSome

/-- Give a key a value in a list of entries: in place if the key is there, else at the end. -/
def assign (k : κ) (v : ν) : List (κ × ν) → List (κ × ν)
  | [] => [(k, v)]
  | (k', v') :: rest => if k = k' then (k, v) :: rest else (k', v') :: assign k v rest

/-- Give a key a value. -/
def insert (t : Table κ ν) (k : κ) (v : ν) : Table κ ν := ⟨assign k v t.entries⟩

/-! ## What looking up sees -/

@[simp] theorem find?_empty (k : κ) : (empty : Table κ ν).find? k = none := rfl

theorem lookup_assign_self (k : κ) (v : ν) (es : List (κ × ν)) :
    lookup k (assign k v es) = some v := by
  induction es with
  | nil => simp [assign, lookup]
  | cons e rest ih =>
    obtain ⟨k', v'⟩ := e
    by_cases h : k = k'
    · simp [assign, lookup, h]
    · simp [assign, lookup, h, ih]

theorem lookup_assign_ne {k l : κ} (h : l ≠ k) (v : ν) (es : List (κ × ν)) :
    lookup l (assign k v es) = lookup l es := by
  induction es with
  | nil => simp [assign, lookup, h]
  | cons e rest ih =>
    obtain ⟨k', v'⟩ := e
    by_cases hk : k = k'
    · subst hk
      simp [assign, lookup, h]
    · simp [assign, lookup, hk, ih]

@[simp] theorem find?_insert_self (t : Table κ ν) (k : κ) (v : ν) :
    (t.insert k v).find? k = some v :=
  lookup_assign_self k v t.entries

theorem find?_insert_ne (t : Table κ ν) {k l : κ} (h : l ≠ k) (v : ν) :
    (t.insert k v).find? l = t.find? l :=
  lookup_assign_ne h v t.entries

theorem find?_insert (t : Table κ ν) (k l : κ) (v : ν) :
    (t.insert k v).find? l = if l = k then some v else t.find? l := by
  by_cases h : l = k
  · simp [h]
  · simp [h, find?_insert_ne]

theorem mem_of_lookup {k : κ} {v : ν} {es : List (κ × ν)} (h : lookup k es = some v) :
    (k, v) ∈ es := by
  induction es with
  | nil => exact absurd h (by simp [lookup])
  | cons e rest ih =>
    obtain ⟨k', v'⟩ := e
    rw [lookup] at h
    split at h
    · next hk =>
      rw [hk, ← Option.some.inj h]
      exact List.mem_cons_self
    · exact List.mem_cons_of_mem _ (ih h)

theorem mem_entries_of_find? {t : Table κ ν} {k : κ} {v : ν} (h : t.find? k = some v) :
    (k, v) ∈ t.entries :=
  mem_of_lookup h

theorem lookup_map {μ : Type} (f : ν → μ) (k : κ) (es : List (κ × ν)) :
    lookup k (es.map fun e => (e.1, f e.2)) = (lookup k es).map f := by
  induction es with
  | nil => rfl
  | cons e rest ih =>
    obtain ⟨k', v'⟩ := e
    by_cases h : k = k'
    · simp [lookup, h]
    · simp [lookup, h, ih]

theorem find?_mapValues {μ : Type} (f : ν → μ) (t : Table κ ν) (k : κ) :
    (t.mapValues f).find? k = (t.find? k).map f :=
  lookup_map f k t.entries

end Table
end CelTyping
