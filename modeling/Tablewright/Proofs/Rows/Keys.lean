import Tablewright.Proofs.Rows.Matched
import Tablewright.Proofs.Settings.Layer

namespace Tablewright

open Layer (ofKeyed)

variable {schema : Schema} {cache : ShapeCache} {columns : List String}
  {sources : List (String × String)} {rows : List (List Value)}

def resultKey (columns : List String) (column table : String) : String :=
  if columns.count column = 1 then column else table ++ "." ++ column

def resultKeys (columns : List String) (sources : List (String × String)) : List String :=
  columns.mapIdx fun i column => resultKey columns column (sources[i]?.elim "" (·.1))

/-- A name is there more than once and the sources do not tell its columns apart, or what comes out
is a key that another column has. -/
def Ambiguous (columns : List String) (sources : List (String × String)) : Prop :=
  ¬ columns.Nodup ∧
    (sources.length ≠ columns.length ∨
      (∃ e ∈ columns.zip sources, columns.count e.1 ≠ 1 ∧ e.2.1 = "") ∨
      ¬ (resultKeys columns sources).Nodup)

example : Ambiguous ["a.id", "id", "id"] [("c", "a.id"), ("a", "id"), ("b", "id")] :=
  ⟨by decide, Or.inr (Or.inr (by decide))⟩

lemma length_resultKeys : (resultKeys columns sources).length = columns.length :=
  List.length_mapIdx

lemma resultKeys_of_nodup (h : columns.Nodup) : resultKeys columns sources = columns := by
  refine List.ext_getElem length_resultKeys fun i _ hi => ?_
  have hcount := List.count_eq_one_of_mem h (List.getElem_mem hi)
  simp only [resultKeys, List.getElem_mapIdx, resultKey, if_pos hcount]

lemma resultKeys_eq_map (h : sources.length = columns.length) :
    resultKeys columns sources =
      (columns.zip sources).map fun e => resultKey columns e.1 e.2.1 := by
  refine List.ext_getElem ?_ fun i hi _ => ?_
  · rw [length_resultKeys, List.length_map, List.length_zip, h, Nat.min_self]
  · have hsource : i < sources.length := h ▸ length_resultKeys ▸ hi
    simp only [resultKeys, List.getElem_mapIdx, List.getElem_map, List.getElem_zip,
      List.getElem?_eq_getElem hsource, Option.elim_some]

section Keys

variable {keys : List String}

lemma firstDuplicate?_eq_none_iff {items : List String} :
    firstDuplicate? items = none ↔ items.Nodup := by
  simp only [firstDuplicate?, List.find?_eq_none, decide_eq_true_eq, Nat.not_lt]
  rw [List.nodup_iff_count_le_one]
  refine ⟨fun h a => ?_, fun h a _ => h a⟩
  by_cases ha : a ∈ items
  · exact h a ha
  · rw [List.count_eq_zero_of_not_mem ha]
    exact Nat.zero_le 1

lemma rowKey_eq_ok_iff {column table key : String} :
    rowKey columns column table = .ok key ↔
      ¬ (columns.count column ≠ 1 ∧ table = "") ∧ resultKey columns column table = key := by
  rw [rowKey, resultKey]
  by_cases hcount : columns.count column = 1
  · simp [hcount]
  · rw [if_neg hcount, if_neg hcount]
    by_cases htable : table = ""
    · simp [hcount, htable]
    · simp [htable]

lemma qualifiedKeys_eq_ok_iff {pairs : List (String × String × String)} :
    qualifiedKeys columns pairs = .ok keys ↔
      (∀ e ∈ pairs, ¬ (columns.count e.1 ≠ 1 ∧ e.2.1 = "")) ∧
        (pairs.map fun e => resultKey columns e.1 e.2.1) = keys := by
  induction pairs generalizing keys with
  | nil => simp [qualifiedKeys]
  | cons e pairs ih =>
    simp only [qualifiedKeys, bind_eq_ok_iff, map_eq_ok_iff, rowKey_eq_ok_iff, ih,
      List.forall_mem_cons, List.map_cons]
    constructor
    · rintro ⟨_, ⟨hhere, rfl⟩, _, ⟨hothers, rfl⟩, rfl⟩
      exact ⟨⟨hhere, hothers⟩, rfl⟩
    · rintro ⟨⟨hhere, hothers⟩, rfl⟩
      exact ⟨_, ⟨hhere, rfl⟩, _, ⟨hothers, rfl⟩, rfl⟩

lemma rowKeys_eq_ok_iff : rowKeys columns sources = .ok keys ↔
    ¬ Ambiguous columns sources ∧ resultKeys columns sources = keys := by
  rw [rowKeys, Ambiguous]
  cases hduplicate : firstDuplicate? columns with
  | none =>
    have hnodup := firstDuplicate?_eq_none_iff.mp hduplicate
    simp [hnodup, resultKeys_of_nodup]
  | some duplicate =>
    have hnodup : ¬ columns.Nodup := fun h => by
      rw [firstDuplicate?_eq_none_iff.mpr h] at hduplicate
      cases hduplicate
    by_cases hlength : sources.length = columns.length
    · have hunfit : ¬ (sources.length ≠ columns.length) := not_not_intro hlength
      simp only [if_pos hlength, bind_eq_ok_iff, qualifiedKeys_eq_ok_iff,
        ← resultKeys_eq_map hlength, and_iff_right hnodup, or_iff_right hunfit, not_or,
        not_exists, not_and, not_not]
      constructor
      · rintro ⟨_, ⟨hsources, rfl⟩, hkeys⟩
        split at hkeys
        · next hnone =>
          exact ⟨⟨hsources, firstDuplicate?_eq_none_iff.mp hnone⟩, Except.ok.inj hkeys⟩
        · cases hkeys
      · rintro ⟨⟨hsources, hkeys⟩, rfl⟩
        refine ⟨_, ⟨hsources, rfl⟩, ?_⟩
        rw [firstDuplicate?_eq_none_iff.mpr hkeys]
    · simp [hlength, hnodup]

lemma code_of_qualifiedKeys {pairs : List (String × String × String)} {e : ShapeError}
    (h : qualifiedKeys columns pairs = .error e) : e.report.code = .shapeAmbiguousColumn := by
  induction pairs with
  | nil => cases h
  | cons pair pairs ih =>
    obtain h | ⟨key, -, h⟩ := bind_eq_error_iff.mp h
    · rw [rowKey] at h
      split at h
      · cases h
      · split at h
        · rw [← Except.error.inj h]
          rfl
        · cases h
    · exact ih (map_eq_error_iff.mp h)

lemma code_of_rowKeys {e : ShapeError} (h : rowKeys columns sources = .error e) :
    e.report.code = .shapeAmbiguousColumn := by
  rw [rowKeys] at h
  split at h
  · cases h
  · split at h
    · obtain h | ⟨keys, -, h⟩ := bind_eq_error_iff.mp h
      · exact code_of_qualifiedKeys h
      · split at h
        · cases h
        · rw [← Except.error.inj h]
          rfl
    · rw [← Except.error.inj h]
      rfl

lemma nodup_resultKeys (h : ¬ Ambiguous columns sources) : (resultKeys columns sources).Nodup := by
  by_cases hcolumns : columns.Nodup
  · rwa [resultKeys_of_nodup hcolumns]
  · by_contra hkeys
    exact h ⟨hcolumns, Or.inr (Or.inr hkeys)⟩

end Keys

section Entries

variable {keys : List String} {row : List Value} {entries made : Keyed Value}

lemma foldl_put_ofKeyed_of_nodup (h : (made ++ entries).keys.Nodup) :
    (ofKeyed entries).foldl (fun m e => Value.put e.1 e.2 m) (ofKeyed made) =
      ofKeyed (made ++ entries) := by
  induction entries generalizing made with
  | nil => rw [List.append_nil]; rfl
  | cons e entries ih =>
    have hnew : e.1 ∉ made.keys := by
      rw [Keyed.keys, List.map_append, List.map_cons] at h
      exact fun he => (List.nodup_append.mp h).2.2 _ he _ List.mem_cons_self rfl
    have hmade : made ++ e :: entries = made ++ [e] ++ entries := by simp
    rw [hmade] at h ⊢
    rw [← ih h, ← Keyed.put_of_notMem e.1 e.2 made hnew, ← Value.put_ofKeyed]
    rfl

lemma Value.mapOf_ofKeyed (h : entries.keys.Nodup) :
    Value.mapOf (ofKeyed entries) = .map (ofKeyed entries) := by
  have hput := @foldl_put_ofKeyed_of_nodup entries [] h
  exact congrArg Value.map hput

lemma keys_zip (h : row.length = keys.length) : Keyed.keys (keys.zip row) = keys :=
  List.map_fst_zip h.ge

lemma get?_zip (hkeys : keys.Nodup) {i : Nat} {key : String} (h : keys[i]? = some key) :
    Keyed.get? (keys.zip row) key = row[i]? := by
  induction keys generalizing row i with
  | nil => cases h
  | cons k keys ih =>
    rw [List.nodup_cons] at hkeys
    cases row with
    | nil => rfl
    | cons v row =>
      rw [Keyed.get?, List.zip_cons_cons, List.lookup_cons]
      cases i with
      | zero =>
        obtain rfl : k = key := Option.some.inj h
        rw [beq_self_eq_true]
        rfl
      | succ i =>
        have hkey : key ≠ k := fun hk => hkeys.1 (hk ▸ List.mem_of_getElem? h)
        rw [beq_false_of_ne hkey]
        exact ih hkeys.2 h

lemma mapAll_eq_ok_iff (hkeys : keys.Nodup) {vs : List Value} :
    mapAll keys rows = .ok vs ↔ (∀ row ∈ rows, row.length = keys.length) ∧
      vs = rows.map fun row => .map (ofKeyed (keys.zip row)) := by
  have hrow {row : List Value} {v : Value} : mapRow keys row = .ok v ↔
      row.length = keys.length ∧ v = .map (ofKeyed (keys.zip row)) := by
    rw [mapRow]
    by_cases h : row.length = keys.length
    · have hmap : Value.mapOf ((keys.zip row).map fun e => (.text e.1, e.2)) =
          .map (ofKeyed (keys.zip row)) := Value.mapOf_ofKeyed (by rwa [keys_zip h])
      rw [if_pos h, hmap]
      simp [h, eq_comm]
    · simp [h]
  induction rows generalizing vs with
  | nil => simp [mapAll, eq_comm]
  | cons row rows ih =>
    simp only [mapAll, bind_eq_ok_iff, map_eq_ok_iff, hrow, ih, List.forall_mem_cons, List.map_cons]
    constructor
    · rintro ⟨_, ⟨hhere, rfl⟩, _, ⟨hothers, rfl⟩, rfl⟩
      exact ⟨⟨hhere, hothers⟩, rfl⟩
    · rintro ⟨⟨hhere, hothers⟩, rfl⟩
      exact ⟨_, ⟨hhere, rfl⟩, _, ⟨hothers, rfl⟩, rfl⟩

end Entries

/-- Rows that are mapped onto no model lose no column: they have the values of the row in its order,
each under the key of its column and under no other, or the columns are ambiguous. -/
theorem keyed_rows_keep_columns (schema : Schema) (cache : ShapeCache) (columns : List String)
    (rows : List (List Value)) (sources : List (String × String)) :
    ((∃ e, (mapRows schema cache columns rows none sources).1 = .error e ∧
      e.code? = some .shapeAmbiguousColumn) ↔ Ambiguous columns sources) ∧
    (∀ mapped, (mapRows schema cache columns rows none sources).1 = .ok mapped ↔
      ¬ Ambiguous columns sources ∧ (∀ row ∈ rows, row.length = columns.length) ∧
        mapped = rows.map fun row => .map (ofKeyed ((resultKeys columns sources).zip row))) ∧
    (resultKeys columns sources).length = columns.length ∧
    (¬ Ambiguous columns sources → (resultKeys columns sources).Nodup ∧
      ∀ (row : List Value) (i : Nat) key, (resultKeys columns sources)[i]? = some key →
        Value.find? key (ofKeyed ((resultKeys columns sources).zip row)) = row[i]?) := by
  refine ⟨?_, fun mapped => ?_, length_resultKeys, fun h => ⟨nodup_resultKeys h, ?_⟩⟩
  · rw [mapRows]
    cases hkeys : rowKeys columns sources with
    | ok keys =>
      refine iff_of_false ?_ (rowKeys_eq_ok_iff.mp hkeys).1
      rintro ⟨e, he, hcode⟩
      obtain ⟨fault, -, rfl⟩ := mapError_eq_error_iff.mp he
      cases hcode
    | error e =>
      refine iff_of_true ⟨_, rfl, congrArg some (code_of_rowKeys hkeys)⟩ ?_
      by_contra h
      rw [rowKeys_eq_ok_iff.mpr ⟨h, rfl⟩] at hkeys
      cases hkeys
  · rw [mapRows]
    cases hkeys : rowKeys columns sources with
    | ok keys =>
      obtain ⟨hambiguous, rfl⟩ := rowKeys_eq_ok_iff.mp hkeys
      rw [mapError_eq_ok_iff, mapAll_eq_ok_iff (nodup_resultKeys hambiguous), length_resultKeys]
      exact (and_iff_right hambiguous).symm
    | error e =>
      refine iff_of_false ?_ ?_
      · intro hmapped
        cases hmapped
      · rintro ⟨h, -⟩
        rw [rowKeys_eq_ok_iff.mpr ⟨h, rfl⟩] at hkeys
        cases hkeys
  · intro row i key hkey
    rw [Value.find?_ofKeyed, get?_zip (nodup_resultKeys h) hkey]

end Tablewright
