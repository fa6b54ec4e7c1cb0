import ApiDocs.Text

/-!
# Tables

A table holds values by name, each name once, in the order in which the names were first put in.
-/

namespace ApiDocs

/-- Values by name, in insertion order. -/
structure Table (α : Type) where
  entries : List (Text × α) := []
  deriving Repr, DecidableEq

namespace Table

variable {α : Type}

instance : Inhabited (Table α) := ⟨⟨[]⟩⟩

def empty : Table α := ⟨[]⟩

/-- The names, in the order in which they were first put in. -/
def keys (t : Table α) : List Text := t.entries.map (·.1)

/-- The value under a name. -/
def get? (t : Table α) (k : Text) : Option α := t.entries.lookup k

/-- Whether there is a value under a name. -/
def has (t : Table α) (k : Text) : Bool := (t.get? k).isSome

/-- Replace the value under a name, or add it at the end. -/
def putEntries (k : Text) (v : α) : List (Text × α) → List (Text × α)
  | [] => [(k, v)]
  | (k', v') :: rest => if k' = k then (k, v) :: rest else (k', v') :: putEntries k v rest

/-- Put a value under a name: a name that is there keeps its place. -/
def put (t : Table α) (k : Text) (v : α) : Table α := ⟨putEntries k v t.entries⟩

/-- Put entries in, one after the other. -/
def putAll (t : Table α) (es : List (Text × α)) : Table α :=
  es.foldl (fun t e => t.put e.1 e.2) t

/-- The table of a list of entries; of entries with one name the last one's value stands. -/
def ofEntries (es : List (Text × α)) : Table α := empty.putAll es

/-- Change the value under a name, which is `d` where there is none. -/
def update (t : Table α) (k : Text) (d : α) (f : α → α) : Table α :=
  t.put k (f ((t.get? k).getD d))

theorem keys_putEntries (k : Text) (v : α) (es : List (Text × α)) :
    (putEntries k v es).map (·.1) =
      if k ∈ es.map (·.1) then es.map (·.1) else es.map (·.1) ++ [k] := by
  induction es with
  | nil => simp [putEntries]
  | cons e rest ih =>
    obtain ⟨k', v'⟩ := e
    by_cases h : k' = k
    · simp [putEntries, h]
    · have h' : k ≠ k' := fun e => h e.symm
      simp only [putEntries, h, if_false, List.map_cons, ih, List.mem_cons, h', false_or]
      split <;> simp

/-- Putting a value in adds its name at the end if it is new, and moves no other name. -/
theorem keys_put (t : Table α) (k : Text) (v : α) :
    (t.put k v).keys = if k ∈ t.keys then t.keys else t.keys ++ [k] :=
  keys_putEntries k v t.entries

theorem lookup_putEntries (k k' : Text) (v : α) (es : List (Text × α)) :
    (putEntries k v es).lookup k' = if k' = k then some v else es.lookup k' := by
  induction es with
  | nil =>
    by_cases h : k' = k
    · simp [putEntries, h]
    · simp [putEntries, List.lookup_cons, beq_false_of_ne h, h]
  | cons e rest ih =>
    obtain ⟨a, b⟩ := e
    by_cases h : a = k
    · subst h
      by_cases h' : k' = a
      · simp [putEntries, h']
      · simp [putEntries, List.lookup_cons, beq_false_of_ne h', h']
    · by_cases h' : k' = a
      · subst h'
        simp [putEntries, h]
      · simp [putEntries, h, List.lookup_cons, beq_false_of_ne h', ih]

/-- Putting a value in changes what is under its name and nothing else. -/
theorem get?_put (t : Table α) (k k' : Text) (v : α) :
    (t.put k v).get? k' = if k' = k then some v else t.get? k' :=
  lookup_putEntries k k' v t.entries

end Table

end ApiDocs
