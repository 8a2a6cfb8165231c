/-!
# Dictionaries

A finite map from names to values, kept as a list of entries.  Inserting keeps the
names in ascending order, which is the order in which they are written; since an
ordered text compares as its UTF-8 bytes do, this is the order of the bytes.

## Main definitions

* `Dict α` — the entries.
* `Dict.get?`, `Dict.insert`, `Dict.erase`, `Dict.ofList` — look up, put, remove, collect.
* `Dict.Ascending` — the names are in strictly ascending order.

## Main results

* `Dict.get?_insert` — a look-up after an insertion.
* `Dict.get?_erase` — a look-up after a removal.
* `Dict.ascending_insert`, `Dict.ascending_erase` — both keep the order.
-/

namespace GraphWalk

universe u v

/-- A finite map from names to values: its entries. -/
abbrev Dict (α : Type u) := List (String × α)

namespace Dict

variable {α : Type u} {β : Type v}

/-- The value under a name. -/
def get? : Dict α → String → Option α
  | [], _ => none
  | (name, value) :: rest, key => if key = name then some value else get? rest key

/-- Put a value under a name, in place of the one that is there. -/
def insert : Dict α → String → α → Dict α
  | [], key, value => [(key, value)]
  | (name, old) :: rest, key, value =>
    if key = name then (key, value) :: rest
    else if key < name then (key, value) :: (name, old) :: rest
    else (name, old) :: insert rest key value

/-- Take a name out. -/
def erase (d : Dict α) (key : String) : Dict α :=
  d.filter fun entry => entry.1 != key

/-- The dictionary of a list of entries; of several entries for one name the last one counts. -/
def ofList (entries : List (String × α)) : Dict α :=
  entries.foldl (fun d entry => insert d entry.1 entry.2) []

/-- The names. -/
def keys (d : Dict α) : List String :=
  d.map Prod.fst

/-- There is a value under the name. -/
def contains (d : Dict α) (key : String) : Bool :=
  (get? d key).isSome

/-- The same names with each value replaced by its image. -/
def mapValues (f : α → β) (d : Dict α) : Dict β :=
  d.map fun entry => (entry.1, f entry.2)

/-- The names are in strictly ascending order. -/
def Ascending (d : Dict α) : Prop :=
  d.Pairwise fun a b => a.1 < b.1

@[simp] theorem get?_nil (key : String) : get? ([] : Dict α) key = none := rfl

@[simp] theorem get?_cons (name : String) (value : α) (rest : Dict α) (key : String) :
    get? ((name, value) :: rest) key = if key = name then some value else get? rest key := rfl

@[simp] theorem keys_nil : keys ([] : Dict α) = [] := rfl

@[simp] theorem keys_cons (entry : String × α) (rest : Dict α) :
    keys (entry :: rest) = entry.1 :: keys rest := rfl

/-! ### Look-ups after an update -/

theorem get?_insert (d : Dict α) (key : String) (value : α) (other : String) :
    get? (insert d key value) other = if other = key then some value else get? d other := by
  induction d with
  | nil => rfl
  | cons entry rest ih =>
    obtain ⟨name, old⟩ := entry
    simp only [insert]
    split
    · next h => subst h; simp only [get?_cons]; split <;> rfl
    · next h =>
      split
      · rfl
      · simp only [get?_cons, ih]
        by_cases h' : other = key
        · subst h'; simp [h]
        · simp [h']

@[simp] theorem get?_insert_self (d : Dict α) (key : String) (value : α) :
    get? (insert d key value) key = some value := by
  simp [get?_insert]

theorem get?_insert_of_ne (d : Dict α) {key other : String} (h : other ≠ key) (value : α) :
    get? (insert d key value) other = get? d other := by
  simp [get?_insert, h]

theorem get?_erase (d : Dict α) (key other : String) :
    get? (erase d key) other = if other = key then none else get? d other := by
  induction d with
  | nil => simp [erase]
  | cons entry rest ih =>
    obtain ⟨name, value⟩ := entry
    simp only [erase] at ih
    by_cases h : name = key
    · subst h
      simp only [erase, List.filter_cons, bne_self_eq_false, Bool.false_eq_true, if_false, ih,
        get?_cons]
      split <;> rfl
    · simp only [erase, List.filter_cons, bne_iff_ne, ne_eq, h, not_false_eq_true, if_true,
        get?_cons, ih]
      by_cases h' : other = name
      · subst h'; simp [h]
      · simp [h']

@[simp] theorem get?_erase_self (d : Dict α) (key : String) : get? (erase d key) key = none := by
  simp [get?_erase]

theorem get?_mapValues (f : α → β) (d : Dict α) (key : String) :
    get? (mapValues f d) key = (get? d key).map f := by
  induction d with
  | nil => rfl
  | cons entry rest ih =>
    obtain ⟨name, value⟩ := entry
    have ih' : get? (List.map (fun entry => (entry.1, f entry.2)) rest) key = _ := ih
    simp only [mapValues, List.map_cons, get?_cons, ih']
    split <;> rfl

theorem mem_of_get?_eq_some {d : Dict α} {key : String} {value : α}
    (h : get? d key = some value) : (key, value) ∈ d := by
  induction d with
  | nil => simp at h
  | cons entry rest ih =>
    obtain ⟨name, old⟩ := entry
    simp only [get?_cons] at h
    split at h
    · next e => subst e; simp_all
    · exact List.mem_cons_of_mem _ (ih h)

theorem get?_eq_none_iff {d : Dict α} {key : String} : get? d key = none ↔ key ∉ keys d := by
  induction d with
  | nil => simp
  | cons entry rest ih =>
    obtain ⟨name, old⟩ := entry
    simp only [get?_cons, keys_cons, List.mem_cons, not_or]
    split
    · next h => simp [h]
    · next h => simp [h, ih]

/-! ### The order of the names -/

theorem mem_insert {d : Dict α} {key : String} {value : α} {entry : String × α}
    (h : entry ∈ insert d key value) : entry = (key, value) ∨ entry ∈ d := by
  induction d with
  | nil => simpa [insert] using h
  | cons first rest ih =>
    obtain ⟨name, old⟩ := first
    simp only [insert] at h
    split at h
    · rcases List.mem_cons.1 h with h | h
      · exact .inl h
      · exact .inr (List.mem_cons_of_mem _ h)
    · split at h
      · rcases List.mem_cons.1 h with h | h
        · exact .inl h
        · exact .inr h
      · rcases List.mem_cons.1 h with h | h
        · exact .inr (h ▸ List.mem_cons_self)
        · rcases ih h with h | h
          · exact .inl h
          · exact .inr (List.mem_cons_of_mem _ h)

theorem ascending_insert {d : Dict α} (h : Ascending d) (key : String) (value : α) :
    Ascending (insert d key value) := by
  induction d with
  | nil => simp [insert, Ascending]
  | cons first rest ih =>
    obtain ⟨name, old⟩ := first
    have hrest : Ascending rest := (List.pairwise_cons.1 h).2
    have hfirst : ∀ entry ∈ rest, name < entry.1 := (List.pairwise_cons.1 h).1
    simp only [insert]
    split
    · next e => subst e; exact List.pairwise_cons.2 ⟨hfirst, hrest⟩
    · next hne =>
      split
      · next hlt =>
        refine List.pairwise_cons.2 ⟨fun entry hmem => ?_, h⟩
        rcases List.mem_cons.1 hmem with rfl | hmem
        · exact hlt
        · exact String.lt_trans hlt (hfirst entry hmem)
      · next hlt =>
        refine List.pairwise_cons.2 ⟨fun entry hmem => ?_, ih hrest⟩
        rcases mem_insert hmem with rfl | hmem
        · exact Std.not_le.1 fun hle => hne (String.le_antisymm (Std.not_lt.1 hlt) hle).symm
        · exact hfirst entry hmem

theorem ascending_erase {d : Dict α} (h : Ascending d) (key : String) :
    Ascending (erase d key) :=
  List.Pairwise.filter _ h

theorem ascending_mapValues {d : Dict α} (h : Ascending d) (f : α → β) :
    Ascending (mapValues f d) :=
  List.pairwise_map.2 h

theorem ascending_ofList (entries : List (String × α)) : Ascending (ofList entries) := by
  suffices h : ∀ d : Dict α, Ascending d →
      Ascending (entries.foldl (fun d entry => insert d entry.1 entry.2) d) from
    h [] List.Pairwise.nil
  induction entries with
  | nil => exact fun d hd => hd
  | cons entry rest ih => exact fun d hd => ih _ (ascending_insert hd _ _)

end Dict

end GraphWalk
