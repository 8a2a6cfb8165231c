import GraphWalk.Proofs.Batch.Waiting
import GraphWalk.Proofs.Path.Keys

/-!
# The first path of every key

A pending set keeps a list of paths and, beside it, the set of their keys.  Four
operations change the two separately.  Seen from outside they are one map from keys to
paths, in the order in which the keys came: the first path of a key stays, and a later
one is refused, until the key is dropped or all paths are taken.

## Main definitions

* `FirstMap` — a map in which the first value of a key stays, in the order of the keys.
* `FirstMap.add`, `FirstMap.dropWhere`, `FirstMap.empty` — put, drop some keys, start anew.
* `PendingSet.Operation`, `PendingSet.Result` — what is done to a pending set, and what it answers.
* `performAll` — operations performed one after the other.
* `PendingSet.ShowsAs` — a pending set looks like a map.

## Main results

* `PendingSet.Represents.perform` — every operation does to the set what it does to the map.
* `PendingSet.performAll_showsAs` — **any number of operations answer as they do on the map.**
-/

namespace GraphWalk

/-! ### The map -/

/-- A map from keys to values, in the order in which the keys came. -/
structure FirstMap (α : Type) where
  /-- The keys with their values. -/
  entries : List (String × α)
  /-- No key comes twice. -/
  nodup : (entries.map Prod.fst).Nodup

namespace FirstMap

variable {α : Type}

/-- The map without keys. -/
def empty : FirstMap α := ⟨[], List.nodup_nil⟩

/-- The keys, in the order in which they came. -/
def keys (m : FirstMap α) : List String := m.entries.map Prod.fst

/-- The values, in the order of their keys. -/
def values (m : FirstMap α) : List α := m.entries.map Prod.snd

/-- The number of keys. -/
def size (m : FirstMap α) : Nat := m.entries.length

/-- There are no keys. -/
def isEmpty (m : FirstMap α) : Bool := m.entries.isEmpty

/-- Put a value under a new key, at the end.  A key that is there keeps its value; the answer says
whether the key was new. -/
def add (m : FirstMap α) (key : String) (value : α) : Bool × FirstMap α :=
  if h : key ∈ m.keys then (false, m)
  else (true, ⟨m.entries ++ [(key, value)], by
    rw [List.map_append, List.map_singleton, ← List.concat_eq_append]
    exact m.nodup.concat h⟩)

/-- Drop some keys; the others stay in their order.  The answer says how many were dropped. -/
def dropWhere (m : FirstMap α) (p : String → Prop) [DecidablePred p] : Nat × FirstMap α :=
  (m.keys.countP fun key => decide (p key),
    ⟨m.entries.filter fun entry => !decide (p entry.1), (List.filter_sublist.map _).nodup m.nodup⟩)

end FirstMap

/-! ### The operations -/

namespace PendingSet

/-- What is done to a pending set. -/
inductive Operation
  /-- A path is added. -/
  | insert (path : Path)
  /-- Arguments are seen under a key. -/
  | fingerprint (key args : String)
  /-- The paths at or below a key are dropped. -/
  | discardUnder (key : String)
  /-- The flush of a batch is scheduled. -/
  | schedule (batch : BatchId)
  /-- The scheduled flush is forgotten. -/
  | unschedule
  /-- A path has joined at a time. -/
  | noteActivity (time : Nat)
  /-- A pass is opened. -/
  | openPass
  /-- A pass is closed. -/
  | closePass
  /-- All paths are taken for a flush. -/
  | takeBatch
  /-- Everything is forgotten. -/
  | clear

/-- What an operation tells about the paths. -/
inductive Result
  /-- Nothing. -/
  | silent
  /-- Whether a path was added. -/
  | added (yes : Bool)
  /-- How many paths were dropped. -/
  | dropped (count : Nat)
  /-- The paths that were taken. -/
  | taken (paths : List Path)

/-- An operation on a pending set. -/
def perform (s : PendingSet) : Operation → Result × PendingSet
  | .insert path => (.added (s.insert path).1, (s.insert path).2)
  | .fingerprint key args => (.silent, (s.fingerprint key args).2)
  | .discardUnder key => (.dropped (s.discardUnder key).1, (s.discardUnder key).2)
  | .schedule batch => (.silent, (s.schedule batch).2)
  | .unschedule => (.silent, s.unschedule)
  | .noteActivity time => (.silent, s.noteActivity time)
  | .openPass => (.silent, s.openPass)
  | .closePass => (.silent, s.closePass.2)
  | .takeBatch => (.taken s.takeBatch.1, s.takeBatch.2)
  | .clear => (.silent, s.clear.2)

end PendingSet

open PendingSet (Operation Result)

/-- The same operation on a map from keys to paths.  What does not concern the paths leaves it as it
is. -/
def FirstMap.perform (m : FirstMap Path) : Operation → Result × FirstMap Path
  | .insert path => (.added (m.add path.key path).1, (m.add path.key path).2)
  | .discardUnder key =>
    (.dropped (m.dropWhere (Path.Within key)).1, (m.dropWhere (Path.Within key)).2)
  | .takeBatch => (.taken m.values, .empty)
  | .clear => (.silent, .empty)
  | _ => (.silent, m)

/-- Operations performed one after the other, with what each of them tells. -/
def performAll {σ : Type} (perform : σ → Operation → Result × σ) :
    σ → List Operation → List Result × σ
  | s, [] => ([], s)
  | s, operation :: operations =>
    let (result, s) := perform s operation
    let (results, s) := performAll perform s operations
    (result :: results, s)

namespace PendingSet

variable {s : PendingSet} {m : FirstMap Path}

/-! ### One operation -/

/-- The pending set holds the paths of the map, and beside them their keys. -/
structure Represents (s : PendingSet) (m : FirstMap Path) : Prop where
  keys_eq : s.keys = s.paths.map Path.key
  entries_eq : m.entries = s.paths.map fun path => (path.key, path)

theorem represents_empty : Represents {} FirstMap.empty := ⟨rfl, rfl⟩

/-- What holds no paths and no keys is the empty map. -/
theorem represents_of_nil (hpaths : s.paths = []) (hkeys : s.keys = []) :
    s.Represents FirstMap.empty := by
  refine ⟨?_, ?_⟩
  · rw [hpaths, hkeys, List.map_nil]
  · rw [hpaths]
    rfl

namespace Represents

theorem keys_map (h : s.Represents m) : m.keys = s.keys := by
  rw [FirstMap.keys, h.entries_eq, List.map_map, h.keys_eq]
  rfl

theorem values_map (h : s.Represents m) : m.values = s.paths := by
  rw [FirstMap.values, h.entries_eq, List.map_map]
  exact List.map_id _

theorem wellFormed (h : s.Represents m) : s.WellFormed := by
  refine ⟨h.keys_eq, ?_⟩
  rw [← h.keys_map]
  exact m.nodup

/-- A path is added to the one when it is to the other. -/
theorem insert (h : s.Represents m) (path : Path) :
    (s.insert path).1 = (m.add path.key path).1 ∧
      (s.insert path).2.Represents (m.add path.key path).2 := by
  unfold PendingSet.insert FirstMap.add
  by_cases hmem : path.key ∈ s.keys
  · rw [if_pos (List.contains_iff_mem.2 hmem), dif_pos (h.keys_map ▸ hmem)]
    exact ⟨rfl, h⟩
  · rw [if_neg (mt List.contains_iff_mem.1 hmem), dif_neg (h.keys_map ▸ hmem)]
    refine ⟨rfl, ?_, ?_⟩
    · show s.keys ++ [path.key] = (s.paths ++ [path]).map Path.key
      rw [List.map_append, h.keys_eq, List.map_singleton]
    · show m.entries ++ [(path.key, path)] = (s.paths ++ [path]).map _
      rw [List.map_append, h.entries_eq, List.map_singleton]

/-- The same keys are dropped from both. -/
theorem discardUnder (h : s.Represents m) (key : String) :
    (s.discardUnder key).1 = (m.dropWhere (Path.Within key)).1 ∧
      (s.discardUnder key).2.Represents (m.dropWhere (Path.Within key)).2 := by
  have hwithin : ∀ candidate,
      Path.isAtOrBelow candidate key = decide (Path.Within key candidate) := fun candidate =>
    Bool.eq_iff_iff.2 (Path.isAtOrBelow_iff_within.trans decide_eq_true_iff.symm)
  refine ⟨?count, h.wellFormed.discardUnder key |>.keys_eq, ?entries⟩
  case count =>
    show s.paths.length - (s.paths.filter _).length = m.keys.countP _
    -- those that stay and those that go make up all paths
    have hsplit := s.paths.length_eq_countP_add_countP fun path => !Path.isAtOrBelow path.key key
    rw [h.keys_map, h.keys_eq, List.countP_map, ← List.countP_eq_length_filter, hsplit,
      Nat.add_sub_cancel_left]
    refine List.countP_congr fun path _ => ?_
    simp [hwithin]
  case entries =>
    show m.entries.filter _ = (s.paths.filter _).map _
    rw [h.entries_eq, List.filter_map]
    simp only [hwithin]
    rfl

/-- **Every operation does to the pending set what it does to the map**, and tells the same. -/
theorem perform (h : s.Represents m) (operation : Operation) :
    (s.perform operation).1 = (m.perform operation).1 ∧
      (s.perform operation).2.Represents (m.perform operation).2 := by
  cases operation with
  | insert path =>
    obtain ⟨hadded, hrest⟩ := h.insert path
    exact ⟨congrArg Result.added hadded, hrest⟩
  | discardUnder key =>
    obtain ⟨hcount, hrest⟩ := h.discardUnder key
    exact ⟨congrArg Result.dropped hcount, hrest⟩
  | takeBatch => exact ⟨congrArg Result.taken h.values_map.symm, represents_of_nil rfl rfl⟩
  | clear => exact ⟨rfl, represents_of_nil rfl rfl⟩
  | fingerprint key args => exact ⟨rfl, h.keys_eq, h.entries_eq⟩
  | schedule batch => exact ⟨rfl, h.keys_eq, h.entries_eq⟩
  | unschedule => exact ⟨rfl, h.keys_eq, h.entries_eq⟩
  | noteActivity time => exact ⟨rfl, h.keys_eq, h.entries_eq⟩
  | openPass => exact ⟨rfl, h.keys_eq, h.entries_eq⟩
  | closePass => exact ⟨rfl, h.keys_eq, h.entries_eq⟩

/-- Operations performed one after the other do to the one what they do to the other. -/
theorem steps (h : s.Represents m) (operations : List Operation) :
    (performAll PendingSet.perform s operations).1
        = (performAll FirstMap.perform m operations).1 ∧
      (performAll PendingSet.perform s operations).2.Represents
        (performAll FirstMap.perform m operations).2 := by
  induction operations generalizing s m with
  | nil => exact ⟨rfl, h⟩
  | cons operation operations ih =>
    obtain ⟨hresult, hnext⟩ := h.perform operation
    obtain ⟨hresults, hlast⟩ := ih hnext
    exact ⟨List.cons_eq_cons.2 ⟨hresult, hresults⟩, hlast⟩

end Represents

/-! ### Any number of operations -/

/-- A pending set looks like a map from keys to paths. -/
structure ShowsAs (s : PendingSet) (m : FirstMap Path) : Prop where
  /-- The paths are the values of the map, in the order in which their keys came. -/
  paths : s.paths = m.values
  /-- Each of them stands under its own key. -/
  keys_map : m.keys = s.paths.map Path.key
  size : s.size = m.size
  isEmpty : s.isEmpty = m.isEmpty
  /-- The keys that are kept beside the paths are the keys of the paths. -/
  mem_keys_iff : ∀ key, key ∈ s.keys ↔ ∃ path ∈ s.paths, path.key = key
  /-- No two paths have the same key. -/
  nodup : (s.paths.map Path.key).Nodup
  /-- A path is added when none of its key is there. -/
  insert_iff : ∀ path, (s.insert path).1 = true ↔ ∀ other ∈ s.paths, other.key ≠ path.key
  /-- What was dropped can be added again. -/
  insert_discardUnder : ∀ key path, Path.Within key path.key →
    ((s.discardUnder key).2.insert path).1 = true
  /-- Once all was taken or forgotten, everything can be added. -/
  insert_takeBatch : ∀ path, (s.takeBatch.2.insert path).1 = true
  insert_clear : ∀ path, (s.clear.2.insert path).1 = true

/-- A path is added when none of its key is there. -/
theorem WellFormed.fst_insert_iff (h : s.WellFormed) (path : Path) :
    (s.insert path).1 = true ↔ ∀ other ∈ s.paths, other.key ≠ path.key := by
  rw [h.fst_insert, List.mem_map]
  simp only [not_exists, not_and, ne_eq]

theorem Represents.showsAs (h : s.Represents m) : s.ShowsAs m := by
  have hlength : m.entries.length = s.paths.length := by rw [h.entries_eq, List.length_map]
  refine
    { paths := h.values_map.symm
      keys_map := h.keys_map.trans h.keys_eq
      size := hlength.symm
      isEmpty := ?isEmpty
      mem_keys_iff := fun key => by rw [h.keys_eq, List.mem_map]
      nodup := h.wellFormed.paths_nodup
      insert_iff := h.wellFormed.fst_insert_iff
      insert_discardUnder := ?insert_discardUnder
      insert_takeBatch := fun _ => rfl
      insert_clear := fun _ => rfl }
  case isEmpty =>
    show s.paths.isEmpty = m.entries.isEmpty
    rw [Bool.eq_iff_iff, List.isEmpty_iff_length_eq_zero, List.isEmpty_iff_length_eq_zero, hlength]
  case insert_discardUnder =>
    intro key path hwithin
    -- whatever stayed has a key that is not within
    refine ((h.wellFormed.discardUnder key).fst_insert_iff path).2 fun other hother hsame => ?_
    rw [paths_discardUnder, List.mem_filter, hsame, Path.isAtOrBelow_iff_within.2 hwithin] at hother
    exact Bool.false_ne_true hother.2

/-- **Any number of operations, from the empty set on, answer as they do on the map**: the first
path of a key stays, what is dropped is counted and leaves the others in their order, and what is
taken are all paths in their order.  Afterwards the pending set looks like the map, whose keys are
the keys kept beside the paths. -/
theorem performAll_showsAs (operations : List Operation) :
    (performAll perform {} operations).1
        = (performAll FirstMap.perform .empty operations).1 ∧
      (performAll perform {} operations).2.ShowsAs
        (performAll FirstMap.perform .empty operations).2 := by
  obtain ⟨hresults, hlast⟩ := represents_empty.steps operations
  exact ⟨hresults, hlast.showsAs⟩

/-- The name of the item joins, is refused, is dropped with the item, and joins again. -/
example : (performAll perform {} [.insert (.ofFields ["item", "name"]),
    .insert (.ofFields ["item", "name"]), .discardUnder "item",
    .insert (.ofFields ["item", "name"])]).1
      = [.added true, .added false, .dropped 1, .added true] := rfl

end PendingSet

end GraphWalk
