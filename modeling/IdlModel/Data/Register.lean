/-!
# Registers

A *register* maps keys to values and remembers the order in which the keys came.
A key occurs once: putting a known key replaces its value and leaves it in its
place, putting a new one appends it.

`find?_put` says what a lookup sees after a put, and `keys_put_of_mem` and
`keys_put_of_not_mem` say what happens to the order.
-/

namespace IdlModel

/-- An insertion-ordered map, as the list of its entries. -/
structure Register (κ : Type) (α : Type) where
  /-- The entries, oldest key first. -/
  entries : List (κ × α) := []
deriving Repr, DecidableEq

namespace Register

variable {κ α : Type} [DecidableEq κ]

/-- The register without entries. -/
def empty : Register κ α := ⟨[]⟩

instance : Inhabited (Register κ α) := ⟨empty⟩

/-- The number of keys. -/
def size (r : Register κ α) : Nat := r.entries.length

/-- The keys, oldest first. -/
def keys (r : Register κ α) : List κ := r.entries.map (·.1)

/-- The value of a key in a list of entries. -/
def findIn (key : κ) : List (κ × α) → Option α
  | [] => none
  | (k, v) :: rest => if k = key then some v else findIn key rest

/-- The value of a key. -/
def find? (r : Register κ α) (key : κ) : Option α := findIn key r.entries

/-- Whether a key has a value. -/
def contains (r : Register κ α) (key : κ) : Bool := (r.find? key).isSome

/-- Put a value into a list of entries. -/
def putIn (key : κ) (value : α) : List (κ × α) → List (κ × α)
  | [] => [(key, value)]
  | (k, v) :: rest => if k = key then (k, value) :: rest else (k, v) :: putIn key value rest

/-- Give a key a value. -/
def put (r : Register κ α) (key : κ) (value : α) : Register κ α := ⟨putIn key value r.entries⟩

/-! ## Lookups after a put -/

theorem findIn_putIn (key k : κ) (value : α) :
    ∀ l : List (κ × α), findIn k (putIn key value l) = if k = key then some value else findIn k l
  | [] => by
      by_cases h : k = key
      · simp [putIn, findIn, h]
      · simp [putIn, findIn, h, Ne.symm h]
  | (a, v) :: rest => by
      have ih := findIn_putIn key k value rest
      by_cases ha : a = key
      · by_cases h : k = key
        · simp [putIn, findIn, ha, h]
        · simp [putIn, findIn, ha, h, Ne.symm h]
      · by_cases hk : a = k
        · have : ¬k = key := fun h => ha (hk.trans h)
          simp [putIn, findIn, hk, this]
        · simp [putIn, findIn, ha, hk, ih]

/-- A lookup sees the last value that was put. -/
@[simp] theorem find?_put (r : Register κ α) (key k : κ) (value : α) :
    (r.put key value).find? k = if k = key then some value else r.find? k :=
  findIn_putIn key k value r.entries

@[simp] theorem find?_empty (key : κ) : (empty : Register κ α).find? key = none := rfl

theorem keys_putIn (key : κ) (value : α) :
    ∀ l : List (κ × α), (putIn key value l).map (·.1) =
      if key ∈ l.map (·.1) then l.map (·.1) else l.map (·.1) ++ [key]
  | [] => by simp [putIn]
  | (a, v) :: rest => by
      have ih := keys_putIn key value rest
      by_cases ha : a = key
      · simp [putIn, ha]
      · have hne : ¬key = a := fun h => ha h.symm
        by_cases hm : key ∈ rest.map (·.1)
        · simp only [putIn, ha, if_false, List.map_cons, ih, hm, if_true, List.mem_cons, hne,
            false_or]
        · simp only [putIn, ha, if_false, List.map_cons, ih, hm, List.mem_cons, hne, false_or,
            List.cons_append]

/-- A known key stays in its place. -/
theorem keys_put_of_mem {r : Register κ α} {key : κ} (h : key ∈ r.keys) (value : α) :
    (r.put key value).keys = r.keys := by
  simpa [keys, put, keys] using (keys_putIn key value r.entries).trans (if_pos h)

/-- A new key comes last. -/
theorem keys_put_of_not_mem {r : Register κ α} {key : κ} (h : key ∉ r.keys) (value : α) :
    (r.put key value).keys = r.keys ++ [key] := by
  simpa [keys, put, keys] using (keys_putIn key value r.entries).trans (if_neg h)

theorem findIn_isSome (key : κ) :
    ∀ l : List (κ × α), (findIn key l).isSome = true ↔ key ∈ l.map (·.1)
  | [] => by simp [findIn]
  | (a, v) :: rest => by
      have ih := findIn_isSome key rest
      by_cases ha : a = key
      · simp [findIn, ha]
      · have hne : ¬key = a := fun h => ha h.symm
        simp only [findIn, ha, if_false, ih, List.map_cons, List.mem_cons, hne, false_or]

/-- A key has a value exactly when it is listed. -/
theorem contains_iff (r : Register κ α) (key : κ) : r.contains key = true ↔ key ∈ r.keys :=
  findIn_isSome key r.entries

end Register

end IdlModel
