import GraphWalk.Merge

/-!
# Accumulated state

What has been fetched so far, and a version that counts the writes, behind a channel that
wakes those who watch it.  A result is absorbed only when it changes something, and else
nobody is woken; an eviction always counts as a write, so that whoever watches looks again.

## Main definitions

* `Snapshot` — the value and its version.
* `State`, `Watcher` — a snapshot behind a channel, and one who watches it.
* `State.sendModify`, `State.sendIfModified` — change the snapshot, and wake those who watch.
* `State.write`, `State.reset` — replace the value.
* `State.absorb` — merge a result, unless nothing would change.
* `Json.prune`, `State.evict` — remove what lies at a path of fields.

## Main results

* `State.hasChanged_absorb` — one who watches is told exactly of the results that are written.
-/

namespace GraphWalk

namespace Json

/-- The members without a name, and without the marked name when there is a marker. -/
def eraseName (marker : Option Char) (members : Dict Json) (name : String) : Dict Json :=
  match marker with
  | some marker => Dict.erase (Dict.erase members name) (marked marker name)
  | none => Dict.erase members name

mutual

/-- The value without what lies at the fields.  Every item of a list on the way is entered; with a
marker the marked last name is removed too. -/
def prune (marker : Option Char) (fields : List String) : Json → Json
  | .array items => .array (pruneItems marker fields items)
  | .object members =>
    match fields with
    | [] => .object members
    | [name] => .object (eraseName marker members name)
    | name :: rest => .object (pruneMember marker name rest members)
  | scalar => scalar

/-- Every item without what lies at the fields. -/
def pruneItems (marker : Option Char) (fields : List String) : List Json → List Json
  | [] => []
  | item :: items => item.prune marker fields :: pruneItems marker fields items

/-- The members, the one of the given name without what lies at the fields below it. -/
def pruneMember (marker : Option Char) (name : String) (fields : List String) :
    List (String × Json) → List (String × Json)
  | [] => []
  | (other, value) :: members =>
    (other, if other = name then value.prune marker fields else value)
      :: pruneMember marker name fields members

end

theorem pruneItems_eq_map (marker : Option Char) (fields : List String) (items : List Json) :
    pruneItems marker fields items = items.map (prune marker fields) := by
  induction items with
  | nil => rw [pruneItems, List.map_nil]
  | cons item items ih => rw [pruneItems, ih, List.map_cons]

end Json

/-- The value fetched so far and the number of writes to it. -/
structure Snapshot where
  /-- What is known. -/
  value : Json := .empty
  /-- The number of writes. -/
  version : Nat := 0
  deriving Inhabited, Repr

/-- The latest snapshot, behind a channel to those who watch it. -/
structure State extends Snapshot where
  /-- How often those who watch were woken. -/
  wakings : Nat := 0
  deriving Inhabited, Repr

/-- One who watches a state. -/
structure Watcher where
  /-- The number of wakings at the last look. -/
  seen : Nat := 0
  deriving DecidableEq, Inhabited, Repr

/-- There was a waking since the last look. -/
def Watcher.hasChanged (w : Watcher) (s : State) : Bool := s.wakings != w.seen

namespace State

/-! ### The channel -/

/-- Watch the state from now on. -/
def subscribe (s : State) : Watcher := ⟨s.wakings⟩

/-- Change the snapshot, and wake those who watch if the change says so. -/
def sendIfModified (s : State) (change : Snapshot → Bool × Snapshot) : Bool × State :=
  let (modified, known) := change s.toSnapshot
  (modified, { known with wakings := if modified then s.wakings + 1 else s.wakings })

/-- Change the snapshot, and wake those who watch. -/
def sendModify (s : State) (change : Snapshot → Snapshot) : State :=
  (s.sendIfModified fun known => (true, change known)).2

/-! ### Writes -/

/-- Replace the value. -/
def write (s : State) (value : Json) : State :=
  s.sendModify fun known => { value, version := known.version + 1 }

/-- Forget everything. -/
def reset (s : State) : State := s.write .empty

/-- The value without what lies at the fields; without any field nothing is left. -/
def evicted (marker : Option Char) (fields : List String) (value : Json) : Json :=
  if fields.isEmpty then .empty else value.prune marker fields

/-- Remove what lies at the fields.  This counts as a write even when nothing was there. -/
def evict (s : State) (fields : List String) (marker : Option Char) : State :=
  s.sendModify fun known =>
    { value := evicted marker fields known.value, version := known.version + 1 }

/-- Merge a result.  Nothing happens when the result is `null` or the merged value is the same;
the answer says whether there was a write. -/
def absorb (s : State) (merger : Merger) (result : Json) : Bool × State :=
  if result.isNull then (false, s)
  else s.sendIfModified fun known =>
    let merged := merger.apply known.value result
    if merged.same known.value then (false, known)
    else (true, { value := merged, version := known.version + 1 })

@[simp] theorem version_write (s : State) (value : Json) :
    (s.write value).version = s.version + 1 := rfl

@[simp] theorem value_write (s : State) (value : Json) : (s.write value).value = value := rfl

@[simp] theorem wakings_write (s : State) (value : Json) :
    (s.write value).wakings = s.wakings + 1 := rfl

@[simp] theorem version_reset (s : State) : s.reset.version = s.version + 1 := rfl

@[simp] theorem value_reset (s : State) : s.reset.value = .empty := rfl

@[simp] theorem wakings_reset (s : State) : s.reset.wakings = s.wakings + 1 := rfl

@[simp] theorem version_evict (s : State) (fields : List String) (marker : Option Char) :
    (s.evict fields marker).version = s.version + 1 := rfl

@[simp] theorem wakings_evict (s : State) (fields : List String) (marker : Option Char) :
    (s.evict fields marker).wakings = s.wakings + 1 := rfl

@[simp] theorem absorb_null (s : State) (merger : Merger) :
    s.absorb merger .null = (false, s) := rfl

/-- A result that is not `null` and changes something is written as it is merged. -/
theorem absorb_eq (s : State) (merger : Merger) (result : Json) :
    s.absorb merger result
      = if result.isNull = false ∧ (merger.apply s.value result).same s.value = false
        then (true, s.write (merger.apply s.value result)) else (false, s) := by
  simp only [absorb, sendIfModified]
  cases result.isNull with
  | true => rfl
  | false =>
    cases (merger.apply s.value result).same s.value with
    | true => rfl
    | false => rfl

/-- A result is written when it is not `null` and changes something. -/
theorem fst_absorb_iff (s : State) (merger : Merger) (result : Json) :
    (s.absorb merger result).1 = true
      ↔ result.isNull = false ∧ (merger.apply s.value result).same s.value = false := by
  rw [absorb_eq]
  split
  · next hwritten => exact iff_of_true rfl hwritten
  · next hidle => exact iff_of_false Bool.false_ne_true hidle

/-- A result that changes nothing leaves the state as it was. -/
theorem absorb_snd_of_fst_eq_false {s : State} {merger : Merger} {result : Json}
    (h : (s.absorb merger result).1 = false) : (s.absorb merger result).2 = s := by
  rw [absorb_eq] at h ⊢
  split at h
  · cases h
  · next hidle => rw [if_neg hidle]

/-- The version grows by one exactly when the answer is yes. -/
theorem version_absorb (s : State) (merger : Merger) (result : Json) :
    (s.absorb merger result).2.version
      = s.version + (if (s.absorb merger result).1 then 1 else 0) := by
  rw [absorb_eq]
  split
  · rfl
  · rfl

/-- Those who watch are woken once exactly when the answer is yes. -/
theorem wakings_absorb (s : State) (merger : Merger) (result : Json) :
    (s.absorb merger result).2.wakings
      = s.wakings + (if (s.absorb merger result).1 then 1 else 0) := by
  rw [absorb_eq]
  split
  · rfl
  · rfl

/-- One who watches is told exactly if there was a waking since. -/
theorem hasChanged_subscribe_iff {s later : State} :
    s.subscribe.hasChanged later = true ↔ later.wakings ≠ s.wakings := by
  rw [Watcher.hasChanged, subscribe, bne_iff_ne]

/-- One who watches is told of a write, if those who watch are woken once by a write alone. -/
theorem hasChanged_subscribe {s later : State} {written : Bool}
    (h : later.wakings = s.wakings + if written then 1 else 0) :
    s.subscribe.hasChanged later = written := by
  rw [Bool.eq_iff_iff, hasChanged_subscribe_iff, h]
  cases written with
  | true => exact iff_of_true (Nat.succ_ne_self s.wakings) rfl
  | false => exact iff_of_false (fun hne => hne rfl) Bool.false_ne_true

/-- **One who watches is told exactly of the results that are written.** -/
theorem hasChanged_absorb (s : State) (merger : Merger) (result : Json) :
    s.subscribe.hasChanged (s.absorb merger result).2 = (s.absorb merger result).1 :=
  hasChanged_subscribe (wakings_absorb s merger result)

end State

end GraphWalk
