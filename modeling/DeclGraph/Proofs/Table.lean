import DeclGraph.Graph.Read

/-!
# Tables and lists of numbers

Laws of the ordered tables behind a graph, and of the indexes that keep a list
of numbers under each key. An index list is increasing as long as only numbers
above all earlier ones are appended.
-/

namespace DeclGraph

/-- Lists of the same members, both in one strict order, are equal. -/
theorem eq_of_ordered {α : Type} {below : α → α → Prop}
    (asymm : ∀ {one other : α}, below one other → ¬ below other one) {first second : List α}
    (firstOrdered : first.Pairwise below) (secondOrdered : second.Pairwise below)
    (same : ∀ member, member ∈ first ↔ member ∈ second) : first = second := by
  have nodup : ∀ {members : List α}, members.Pairwise below → members.Nodup := by
    refine fun ordered => ordered.imp ?_
    rintro member _ less rfl
    exact asymm less less
  have perm : first.Perm second :=
    (List.perm_ext_iff_of_nodup (nodup firstOrdered) (nodup secondOrdered)).mpr same
  exact perm.eq_of_pairwise (fun one other _ _ less greater => absurd greater (asymm less))
    firstOrdered secondOrdered

/-- A list of one value that repeats nothing holds it once. -/
theorem eq_singleton_of_nodup {α : Type} {members : List α} {single : α} (nodup : members.Nodup)
    (listed : single ∈ members) (only : ∀ other ∈ members, other = single) :
    members = [single] := by
  refine List.perm_singleton.mp ((List.perm_ext_iff_of_nodup nodup (by simp)).mpr fun other => ?_)
  rw [List.mem_singleton]
  exact ⟨only other, fun same => same ▸ listed⟩

section Tables

variable {α β : Type} {cmp : α → α → Ordering} [Std.TransCmp cmp]

/-- The values of a table are listed in the order of their keys. -/
theorem values_eq_map_toList (table : Std.ExtTreeMap α β cmp) :
    table.values = table.toList.map (·.2) := by
  obtain ⟨⟨quotient⟩⟩ := table
  induction quotient using Quotient.ind with
  | _ tree =>
    show tree.values = (Std.DTreeMap.Const.toList tree).map (·.2)
    unfold Std.DTreeMap.values Std.DTreeMap.Const.toList
    rw [Std.DTreeMap.Internal.Impl.values_eq_map_snd,
      Std.DTreeMap.Internal.Impl.Const.toList_eq_toListModel_map]
    simp

/-- The values of a table are those that it has under some key. -/
theorem mem_values [Std.LawfulEqCmp cmp] {table : Std.ExtTreeMap α β cmp} {value : β} :
    value ∈ table.values ↔ ∃ key : α, table[key]? = some value := by
  simp [values_eq_map_toList, Std.ExtTreeMap.mem_toList_iff_getElem?_eq_some]

/-- Values that tell the keys they stand under tell all keys, in their order. -/
theorem map_values_eq_keys [Std.LawfulEqCmp cmp] {table : Std.ExtTreeMap α β cmp} {tell : β → α}
    (told : ∀ {key : α} {value : β}, table[key]? = some value → tell value = key) :
    table.values.map tell = table.keys := by
  rw [values_eq_map_toList, ← Std.ExtTreeMap.map_fst_toList_eq_keys, List.map_map]
  exact List.map_congr_left fun entry member =>
    told (Std.ExtTreeMap.mem_toList_iff_getElem?_eq_some.mp member)

end Tables

namespace Graph

variable {α : Type} [Ord α] [Std.TransOrd α]

/-- An empty index lists nothing. -/
@[simp] theorem listAt_empty (key : α) : listAt (∅ : Std.ExtTreeMap α (List Nat)) key = [] := by
  simp [listAt]

variable [Std.LawfulEqOrd α]

/-- A number that is added to a list stands at its end. -/
theorem listAt_appendAt_self (index : Std.ExtTreeMap α (List Nat)) (key : α) (id : Nat) :
    listAt (appendAt index key id) key = listAt index key ++ [id] := by
  simp [listAt, appendAt]

/-- Adding to one list leaves the others as they are. -/
theorem listAt_appendAt_of_ne (index : Std.ExtTreeMap α (List Nat)) {key other : α} (id : Nat)
    (different : key ≠ other) : listAt (appendAt index key id) other = listAt index other := by
  simp [listAt, appendAt, Std.ExtTreeMap.getElem?_insert, different]

/-- A number that is removed from a list is no longer in it. -/
theorem listAt_removeAt_self (index : Std.ExtTreeMap α (List Nat)) (key : α) (id : Nat) :
    listAt (removeAt index key id) key = (listAt index key).filter (· ≠ id) := by
  unfold removeAt
  by_cases empty : ((listAt index key).filter (· ≠ id)).isEmpty
  · have nothing : (listAt index key).filter (· ≠ id) = [] := by simpa using empty
    simp only [nothing]
    simp [listAt]
  · simp only [empty]
    simp [listAt]

/-- Removing from one list leaves the others as they are. -/
theorem listAt_removeAt_of_ne (index : Std.ExtTreeMap α (List Nat)) {key other : α} (id : Nat)
    (different : key ≠ other) : listAt (removeAt index key id) other = listAt index other := by
  unfold removeAt
  by_cases empty : ((listAt index key).filter (· ≠ id)).isEmpty
  · simp only [empty, if_true]
    simp [listAt, Std.ExtTreeMap.getElem?_erase, different]
  · simp only [empty]
    simp [listAt, Std.ExtTreeMap.getElem?_insert, different]

/-- What is listed after a number was added is that number or was listed before. -/
theorem mem_listAt_appendAt {index : Std.ExtTreeMap α (List Nat)} {key other : α} {id found : Nat} :
    found ∈ listAt (appendAt index key id) other ↔
      found ∈ listAt index other ∨ (other = key ∧ found = id) := by
  by_cases same : key = other
  · subst same
    simp [listAt_appendAt_self]
  · simp [listAt_appendAt_of_ne index id same, Ne.symm same]

/-- What is listed after a number was removed was listed before and is not that number. -/
theorem mem_listAt_removeAt {index : Std.ExtTreeMap α (List Nat)} {key other : α} {id found : Nat} :
    found ∈ listAt (removeAt index key id) other ↔
      found ∈ listAt index other ∧ (other = key → found ≠ id) := by
  by_cases same : key = other
  · subst same
    simp [listAt_removeAt_self]
  · simp [listAt_removeAt_of_ne index id same, Ne.symm same]

/-- An index stays increasing when a number above all listed ones is appended. -/
theorem increasing_appendAt {index : Std.ExtTreeMap α (List Nat)} {key other : α} {id : Nat}
    (increasing : (listAt index other).Pairwise (· < ·))
    (above : ∀ listed ∈ listAt index other, listed < id) :
    (listAt (appendAt index key id) other).Pairwise (· < ·) := by
  by_cases same : key = other
  · subst same
    rw [listAt_appendAt_self, List.pairwise_append]
    exact ⟨increasing, by simp, by simpa using above⟩
  · rwa [listAt_appendAt_of_ne index id same]

/-- An increasing list stays so when a number is removed. -/
theorem increasing_removeAt {index : Std.ExtTreeMap α (List Nat)} {key other : α} {id : Nat}
    (increasing : (listAt index other).Pairwise (· < ·)) :
    (listAt (removeAt index key id) other).Pairwise (· < ·) := by
  by_cases same : key = other
  · subst same
    rw [listAt_removeAt_self]
    exact increasing.filter _
  · rwa [listAt_removeAt_of_ne index id same]

end Graph

end DeclGraph
