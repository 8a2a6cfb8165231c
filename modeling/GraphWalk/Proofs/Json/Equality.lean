import GraphWalk.Proofs.Json.Arrivals

/-!
# Equal values

Values are compared by what they denote: the two zeros of a double are one number.  This
equality is an equivalence, and nothing that is done with a value tells equal values
apart: the same names lead to equal values, and a result merged into either leaves equal
values.

## Main results

* `Json.same_comm`, `Json.same_trans` — equality of values is an equivalence.
* `Json.exists_at?_of_same` — the same names lead to equal values.
* `Json.same_merge` — a result merged into equal values leaves equal values.
-/

namespace GraphWalk

/-! ### An equivalence -/

theorem Binary64.same_trans {x y z : Binary64} (hxy : x.same y = true) (hyz : y.same z = true) :
    x.same z = true := by
  simp only [same, Bool.or_eq_true, beq_iff_eq, Bool.and_eq_true] at *
  rcases hxy with rfl | ⟨hx, hy⟩
  · exact hyz
  · rcases hyz with rfl | ⟨-, hz⟩
    · exact .inr ⟨hx, hy⟩
    · exact .inr ⟨hx, hz⟩

theorem Number.same_comm (m n : Number) : m.same n = n.same m := by
  cases m with
  | int m => cases n <;> simp [BEq.comm]
  | double x => cases n <;> simp [Binary64.same_comm x]

theorem Number.same_trans {l m n : Number} (hlm : l.same m = true) (hmn : m.same n = true) :
    l.same n = true := by
  cases l <;> cases m <;> cases n <;> simp_all
  exact Binary64.same_trans hlm hmn

namespace Json

mutual

theorem same_comm : ∀ v w : Json, v.same w = w.same v
  | .null, w => by cases w <;> simp [same]
  | .bool _, w => by cases w <;> simp [same, BEq.comm]
  | .number m, w => by cases w <;> simp [same, Number.same_comm m]
  | .string _, w => by cases w <;> simp [same, BEq.comm]
  | .array xs, w => by
    cases w with
    | array ys => rw [same, same, sameItems_comm xs ys]
    | _ => simp [same]
  | .object xs, w => by
    cases w with
    | object ys => rw [same, same, sameMembers_comm xs ys]
    | _ => simp [same]

theorem sameItems_comm : ∀ xs ys : List Json, sameItems xs ys = sameItems ys xs
  | [], ys => by cases ys <;> simp [sameItems]
  | x :: xs, ys => by
    cases ys with
    | nil => simp [sameItems]
    | cons y ys => rw [sameItems, sameItems, same_comm x y, sameItems_comm xs ys]

theorem sameMembers_comm : ∀ xs ys : List (String × Json), sameMembers xs ys = sameMembers ys xs
  | [], ys => by cases ys <;> simp [sameMembers]
  | (name, x) :: xs, ys => by
    cases ys with
    | nil => simp [sameMembers]
    | cons entry ys =>
      obtain ⟨other, y⟩ := entry
      rw [sameMembers, sameMembers, same_comm x y, sameMembers_comm xs ys, BEq.comm]

end

mutual

theorem same_trans : ∀ {v w x : Json}, v.same w = true → w.same x = true → v.same x = true
  | .null, w, x, hv, hw => by cases w <;> cases x <;> simp_all [same]
  | .bool _, w, x, hv, hw => by cases w <;> cases x <;> simp_all [same]
  | .number _, w, x, hv, hw => by
    cases w <;> cases x <;> simp_all [same]
    exact Number.same_trans hv hw
  | .string _, w, x, hv, hw => by cases w <;> cases x <;> simp_all [same]
  | .array _, w, x, hv, hw => by
    cases w <;> cases x <;> simp_all [same]
    exact sameItems_trans hv hw
  | .object _, w, x, hv, hw => by
    cases w <;> cases x <;> simp_all [same]
    exact sameMembers_trans hv hw

theorem sameItems_trans : ∀ {xs ys zs : List Json}, sameItems xs ys = true →
    sameItems ys zs = true → sameItems xs zs = true
  | [], ys, zs, hxy, hyz => by cases ys <;> cases zs <;> simp_all [sameItems]
  | x :: xs, [], _, hxy, _ => by simp [sameItems] at hxy
  | x :: xs, y :: ys, [], _, hyz => by simp [sameItems] at hyz
  | x :: xs, y :: ys, z :: zs, hxy, hyz => by
    rw [sameItems, Bool.and_eq_true] at hxy hyz ⊢
    exact ⟨same_trans hxy.1 hyz.1, sameItems_trans hxy.2 hyz.2⟩

theorem sameMembers_trans : ∀ {xs ys zs : List (String × Json)}, sameMembers xs ys = true →
    sameMembers ys zs = true → sameMembers xs zs = true
  | [], ys, zs, hxy, hyz => by cases ys <;> cases zs <;> simp_all [sameMembers]
  | _ :: _, [], _, hxy, _ => by simp [sameMembers] at hxy
  | _ :: _, _ :: _, [], _, hyz => by simp [sameMembers] at hyz
  | (_, x) :: xs, (_, y) :: ys, (_, z) :: zs, hxy, hyz => by
    rw [sameMembers, Bool.and_eq_true, Bool.and_eq_true, beq_iff_eq] at hxy hyz ⊢
    exact ⟨⟨hxy.1.1.trans hyz.1.1, same_trans hxy.1.2 hyz.1.2⟩, sameMembers_trans hxy.2 hyz.2⟩

end

/-! ### Names lead to equal values -/

variable {policy : ListPolicy} {v w x : Json} {names : List String}

/-- The same names lead to equal values. -/
theorem exists_at?_of_same (h : v.same w = true) (hx : v.at? names = some x) :
    ∃ y, w.at? names = some y ∧ x.same y = true := by
  induction names generalizing v w with
  | nil =>
    rw [at?_nil] at hx
    exact ⟨w, at?_nil w, Option.some.inj hx ▸ h⟩
  | cons name names ih =>
    obtain ⟨xs, child, rfl, hchild, hx⟩ := exists_member_of_at?_cons hx
    cases w with
    | object ys =>
      rw [same] at h
      rcases get?_of_sameMembers h name with ⟨hnone, -⟩ | ⟨old, other, hold, hother, hsame⟩
      · rw [hchild] at hnone
        cases hnone
      · obtain rfl := Option.some.inj (hchild.symm.trans hold)
        obtain ⟨y, hy, hxy⟩ := ih hsame hx
        refine ⟨y, ?_, hxy⟩
        rw [at?_cons, member?_object, hother]
        exact hy
    | _ => rw [same] at h <;> exact absurd h Bool.false_ne_true

theorem length_eq_of_sameItems {xs ys : List Json} (h : sameItems xs ys = true) :
    xs.length = ys.length := by
  induction xs generalizing ys with
  | nil => cases ys <;> simp_all [sameItems]
  | cons x xs ih =>
    cases ys with
    | nil => simp [sameItems] at h
    | cons y ys =>
      rw [sameItems, Bool.and_eq_true] at h
      rw [List.length_cons, List.length_cons, ih h.2]

/-- A value that is equal to a list is one of the same length. -/
theorem exists_items_of_same {xs : List Json} (h : (array xs).same w = true) :
    ∃ ys, w = .array ys ∧ xs.length = ys.length := by
  cases w with
  | array ys =>
    rw [same] at h
    exact ⟨ys, rfl, length_eq_of_sameItems h⟩
  | _ => rw [same] at h <;> exact absurd h Bool.false_ne_true

/-! ### Merging into equal values -/

theorem sameItems_append (items : List Json) {xs ys : List Json} (h : sameItems xs ys = true) :
    sameItems (xs ++ items) (ys ++ items) = true := by
  induction xs generalizing ys with
  | nil => cases ys <;> simp_all [sameItems]
  | cons x xs ih =>
    cases ys with
    | nil => simp [sameItems] at h
    | cons y ys =>
      rw [sameItems, Bool.and_eq_true] at h
      rw [List.cons_append, List.cons_append, sameItems, h.1, ih h.2]
      rfl

theorem sameMembers_insert (name : String) (hvw : v.same w = true) {xs ys : List (String × Json)}
    (h : sameMembers xs ys = true) :
    sameMembers (Dict.insert xs name v) (Dict.insert ys name w) = true := by
  induction xs generalizing ys with
  | nil => cases ys <;> simp_all [sameMembers, Dict.insert]
  | cons entry xs ih =>
    obtain ⟨first, x⟩ := entry
    cases ys with
    | nil => simp [sameMembers] at h
    | cons entry ys =>
      obtain ⟨second, y⟩ := entry
      rw [sameMembers, Bool.and_eq_true, Bool.and_eq_true, beq_iff_eq] at h
      obtain ⟨⟨rfl, hxy⟩, hrest⟩ := h
      rw [Dict.insert, Dict.insert]
      split
      · simp [sameMembers, hvw, hrest]
      split
      · simp [sameMembers, hvw, hxy, hrest]
      · simp [sameMembers, hxy, ih hrest]

mutual

/-- A result merged into equal values leaves equal values. -/
theorem same_merge (policy : ListPolicy) {v w : Json} (h : v.same w = true) :
    ∀ new : Json, (v.merge policy new).same (w.merge policy new) = true
  | .object new => by
    cases v with
    | object xs =>
      cases w with
      | object ys =>
        rw [same] at h
        rw [merge_object_object, merge_object_object, same]
        exact sameMembers_mergeMembers policy h new
      | _ => rw [same] at h <;> exact absurd h Bool.false_ne_true
    | _ =>
      -- what is no object is replaced, and so is what equals it
      cases w with
      | object ys => rw [same] at h <;> exact absurd h Bool.false_ne_true
      | _ => simp [merge]
  | .array items => by
    cases v with
    | array xs =>
      cases w with
      | array ys =>
        rw [same] at h
        cases policy with
        | concat => simpa [same] using sameItems_append items h
        | replace => simp
      | _ => rw [same] at h <;> exact absurd h Bool.false_ne_true
    | _ =>
      cases w with
      | array ys => rw [same] at h <;> exact absurd h Bool.false_ne_true
      | _ => simp [merge]
  | .null => by rw [merge_of_scalar policy _ rfl, merge_of_scalar policy _ rfl, same_self]
  | .bool _ => by rw [merge_of_scalar policy _ rfl, merge_of_scalar policy _ rfl, same_self]
  | .number _ => by rw [merge_of_scalar policy _ rfl, merge_of_scalar policy _ rfl, same_self]
  | .string _ => by rw [merge_of_scalar policy _ rfl, merge_of_scalar policy _ rfl, same_self]

theorem sameMembers_mergeMembers (policy : ListPolicy) {xs ys : List (String × Json)}
    (h : sameMembers xs ys = true) : ∀ new : List (String × Json),
      sameMembers (mergeMembers policy xs new) (mergeMembers policy ys new) = true
  | [] => by
    rw [mergeMembers_nil, mergeMembers_nil]
    exact h
  | (name, value) :: rest => by
    have hvalue : (mergeInto policy (Dict.get? xs name) value).same
        (mergeInto policy (Dict.get? ys name) value) = true := by
      rcases get?_of_sameMembers h name with ⟨hx, hy⟩ | ⟨x, y, hx, hy, hxy⟩
      · rw [hx, hy]
        exact same_self _
      · rw [hx, hy]
        exact same_merge policy hxy value
    rw [mergeMembers_cons, mergeMembers_cons]
    exact sameMembers_mergeMembers policy (sameMembers_insert name hvalue h) rest

end

end Json

end GraphWalk
