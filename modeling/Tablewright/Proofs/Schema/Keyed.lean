import Mathlib.Data.List.Induction
import Mathlib.Data.List.Nodup
import Mathlib.Tactic.Lemma
import Mathlib.Tactic.Tauto
import Tablewright.Schema.Keyed

namespace Tablewright

section Latest

variable {α β γ : Type} {name : α → String} {key : String} {items : List α} {a : α}

def latest (name : α → String) (key : String) (items : List α) : Option α :=
  items.reverse.find? fun a => name a = key

lemma latest_append_cons (front back : List α) : latest name key (front ++ a :: back) =
    (latest name key back).or (if name a = key then some a else latest name key front) := by
  rw [latest, List.reverse_append, List.reverse_cons, List.find?_append, List.find?_append,
    List.find?_singleton, Option.or_assoc]
  by_cases h : name a = key <;> simp [h, latest]

lemma latest_cons : latest name key (a :: items) =
    (latest name key items).or (if name a = key then some a else none) :=
  latest_append_cons [] items

lemma latest_map (f : β → α) (items : List β) :
    latest name key (items.map f) = (latest (name ∘ f) key items).map f := by
  rw [latest, ← List.map_reverse, List.find?_map]
  rfl

lemma latest_eq_some (h : latest name key items = some a) : a ∈ items ∧ name a = key :=
  ⟨List.mem_reverse.mp (List.mem_of_find?_eq_some h), by simpa using List.find?_some h⟩

lemma latest_isSome_iff : (latest name key items).isSome ↔ ∃ a ∈ items, name a = key := by
  simp [latest]

lemma latest_of_nodup (h : (items.map name).Nodup) (ha : a ∈ items) :
    latest name (name a) items = some a := by
  obtain ⟨b, hb⟩ := Option.isSome_iff_exists.mp (latest_isSome_iff.mpr ⟨a, ha, rfl⟩)
  obtain ⟨hmem, hname⟩ := latest_eq_some hb
  rw [hb, List.inj_on_of_nodup_map h hmem ha hname]

lemma latest_eq_some_iff : latest name key items = some a ↔
    name a = key ∧ ∃ front back, items = front ++ a :: back ∧ ∀ b ∈ back, name b ≠ key := by
  rw [latest, List.find?_eq_some_iff_append]
  simp only [decide_eq_true_eq, Bool.not_eq_eq_eq_not, Bool.not_true, decide_eq_false_iff_not]
  refine and_congr_right fun _ => ⟨?_, ?_⟩
  · rintro ⟨back, front, hitems, hback⟩
    refine ⟨front.reverse, back.reverse, ?_, fun b hb => hback b (List.mem_reverse.mp hb)⟩
    rw [← List.reverse_reverse items, hitems]
    simp
  · rintro ⟨front, back, rfl, hback⟩
    exact ⟨back.reverse, front.reverse, by simp, fun b hb => hback b (List.mem_reverse.mp hb)⟩

lemma latest_filterMap {f : α → Option β} {other : β → String} {key' : String} {g : α → γ}
    {g' : β → γ}
    (h : ∀ a ∈ items, ∃ b, f a = some b ∧ (other b = key' ↔ name a = key) ∧ g' b = g a) :
    (latest other key' (items.filterMap f)).map g' = (latest name key items).map g := by
  induction items with
  | nil => rfl
  | cons a items ih =>
    obtain ⟨⟨b, hb, hname, hvalue⟩, hrest⟩ := List.forall_mem_cons.mp h
    rw [List.filterMap_cons_some hb, latest_cons, latest_cons, Option.map_or, Option.map_or,
      ih hrest]
    by_cases ha : name a = key
    · rw [if_pos ha, if_pos (hname.mpr ha), Option.map_some, Option.map_some, hvalue]
    · rw [if_neg ha, if_neg (mt hname.mp ha)]
      rfl

end Latest

namespace Keyed

variable {α : Type}

lemma put_of_notMem (key : String) (value : α) (entries : Keyed α) (h : key ∉ keys entries) :
    put key value entries = entries ++ [(key, value)] := by
  induction entries with
  | nil => rfl
  | cons e rest ih =>
    obtain ⟨hne, hrest⟩ : key ≠ e.1 ∧ key ∉ keys rest := by
      simpa only [keys, List.map_cons, List.mem_cons, not_or] using h
    simp only [put, if_neg (Ne.symm hne), ih hrest, List.cons_append]

lemma mem_put (key : String) (value : α) (entries : Keyed α) (e : String × α)
    (h : e ∈ put key value entries) : e = (key, value) ∨ e ∈ entries := by
  induction entries with
  | nil => simpa [put] using h
  | cons d rest ih =>
    obtain ⟨k, v⟩ := d
    by_cases hk : k = key
    · simp only [put, if_pos hk, List.mem_cons] at h
      rcases h with rfl | h
      · exact Or.inl (by rw [hk])
      · exact Or.inr (List.mem_cons_of_mem _ h)
    · simp only [put, if_neg hk, List.mem_cons] at h
      rcases h with rfl | h
      · exact Or.inr List.mem_cons_self
      · exact (ih h).imp_right (List.mem_cons_of_mem _)

lemma get?_put (key other : String) (value : α) (entries : Keyed α) :
    (put key value entries).get? other =
      if key = other then some value else entries.get? other := by
  induction entries with
  | nil =>
    by_cases h : key = other
    · simp [put, get?, h]
    · simp [put, get?, h, Ne.symm h]
  | cons e rest ih =>
    obtain ⟨k, v⟩ := e
    simp only [get?] at ih ⊢
    by_cases hk : k = key
    · by_cases h : key = other
      · simp [put, hk, h]
      · simp [put, hk, h, List.lookup_cons, beq_false_of_ne (Ne.symm h)]
    · rw [put, if_neg hk, List.lookup_cons, List.lookup_cons, ih]
      by_cases h : key = other
      · rw [if_pos h, if_pos h, beq_false_of_ne (h ▸ Ne.symm hk)]
      · rw [if_neg h, if_neg h]

lemma foldl_put_of_nodup (key : α → String) (items : List α) (entries : Keyed α)
    (h : (keys entries ++ items.map key).Nodup) :
    items.foldl (fun es a => es.put (key a) a) entries =
      entries ++ items.map fun a => (key a, a) := by
  induction items generalizing entries with
  | nil => simp
  | cons a rest ih =>
    have hnew : key a ∉ keys entries := by
      intro hmem
      exact (List.nodup_append.mp h).2.2 _ hmem _ (by simp) rfl
    rw [List.foldl_cons, put_of_notMem _ _ _ hnew, ih]
    · simp
    · simpa [keys] using h

lemma ofList_of_nodup (key : α → String) (items : List α) (h : (items.map key).Nodup) :
    ofList key items = items.map fun a => (key a, a) := by
  rw [ofList, foldl_put_of_nodup key items [] (by simpa [keys] using h), List.nil_append]

lemma values_ofList (key : α → String) (items : List α) (h : (items.map key).Nodup) :
    values (ofList key items) = items := by
  simp [values, ofList_of_nodup key items h, Function.comp_def]

lemma mem_keys_put (key : String) (value : α) (entries : Keyed α) (k : String) :
    k ∈ keys (put key value entries) ↔ k ∈ keys entries ∨ k = key := by
  induction entries with
  | nil => simp [put, keys]
  | cons e rest ih =>
    obtain ⟨other, v⟩ := e
    simp only [keys, List.map_cons, List.mem_cons] at ih ⊢
    by_cases he : other = key
    · rw [put, if_pos he, List.map_cons, List.mem_cons, he]
      tauto
    · rw [put, if_neg he, List.map_cons, List.mem_cons, ih, or_assoc]

lemma mem_keys_foldl_put (key : α → String) (items : List α) (entries : Keyed α) (k : String) :
    k ∈ keys (items.foldl (fun es a => es.put (key a) a) entries) ↔
      k ∈ keys entries ∨ k ∈ items.map key := by
  induction items generalizing entries with
  | nil => simp
  | cons a rest ih => rw [List.foldl_cons, ih, mem_keys_put, List.map_cons, List.mem_cons, or_assoc]

lemma mem_keys_ofList (key : α → String) (items : List α) (k : String) :
    k ∈ keys (ofList key items) ↔ k ∈ items.map key := by
  rw [ofList, mem_keys_foldl_put]
  simp [keys]

lemma foldl_put_key (key : α → String) (items : List α) (entries : Keyed α)
    (h : ∀ e ∈ entries, e.1 = key e.2) :
    ∀ e ∈ items.foldl (fun es a => es.put (key a) a) entries, e.1 = key e.2 := by
  induction items generalizing entries with
  | nil => exact h
  | cons a rest ih =>
    apply ih
    intro e he
    rcases mem_put _ _ _ _ he with rfl | he
    · rfl
    · exact h e he

lemma key_of_mem_ofList (key : α → String) (items : List α) :
    ∀ e ∈ ofList key items, e.1 = key e.2 :=
  foldl_put_key key items [] (by simp)

section Lookup

variable {β : Type} {entries : Keyed α} {key : String}

lemma get?_cons (e : String × α) :
    get? (e :: entries) key = if e.1 = key then some e.2 else get? entries key := by
  rw [get?, List.lookup_cons, BEq.comm]
  by_cases h : e.1 = key
  · simp [h]
  · rw [if_neg h, beq_false_of_ne h]
    rfl

lemma get?_eq_none_iff : entries.get? key = none ↔ key ∉ entries.keys := by
  rw [get?, List.lookup_eq_none_iff, keys, List.mem_map]
  constructor
  · rintro h ⟨e, he, rfl⟩
    simpa using h e he
  · exact fun h e he => bne_iff_ne.mpr fun hkey => h ⟨e, he, hkey.symm⟩

lemma mem_of_get? {a : α} (h : entries.get? key = some a) : (key, a) ∈ entries := by
  induction entries with
  | nil => cases h
  | cons e entries ih =>
    rw [get?_cons] at h
    split at h
    · next hkey =>
      obtain rfl := Option.some.inj h
      exact hkey ▸ List.mem_cons_self
    · exact List.mem_cons_of_mem _ (ih h)

lemma nodup_keys_put (key : String) (a : α) (h : entries.keys.Nodup) :
    (put key a entries).keys.Nodup := by
  induction entries with
  | nil => exact List.nodup_singleton key
  | cons e entries ih =>
    obtain ⟨hnew, hrest⟩ := List.nodup_cons.mp h
    rw [put]
    split
    · exact h
    · next hne =>
      refine List.nodup_cons.mpr ⟨fun hmem => ?_, ih hrest⟩
      exact ((mem_keys_put _ _ _ _).mp hmem).elim hnew hne

lemma get?_of_mem {a : α} (h : entries.keys.Nodup) (ha : (key, a) ∈ entries) :
    entries.get? key = some a := by
  induction entries with
  | nil => cases ha
  | cons e entries ih =>
    obtain ⟨hnew, hrest⟩ := List.nodup_cons.mp h
    rw [get?_cons]
    obtain rfl | ha := List.mem_cons.mp ha
    · exact if_pos rfl
    · rw [if_neg, ih hrest ha]
      rintro rfl
      exact hnew (List.mem_map.mpr ⟨_, ha, rfl⟩)

def ofNames (names : List String) (f : String → Option α) : Keyed α :=
  names.filterMap fun n => (f n).map fun a => (n, a)

lemma mem_keys_ofNames {names : List String} {f : String → Option α}
    (h : key ∈ (ofNames names f).keys) : key ∈ names := by
  obtain ⟨e, he, rfl⟩ := List.mem_map.mp h
  obtain ⟨n, hn, hentry⟩ := List.mem_filterMap.mp he
  obtain ⟨a, -, rfl⟩ := Option.map_eq_some_iff.mp hentry
  exact hn

lemma get?_ofNames {names : List String} (f : String → Option α) (h : key ∈ names) :
    (ofNames names f).get? key = f key := by
  induction names with
  | nil => cases h
  | cons n names ih =>
    rw [ofNames, List.filterMap_cons]
    by_cases hn : n = key
    · subst hn
      cases hf : f n with
      | none =>
        refine get?_eq_none_iff.mpr fun hmem => ?_
        obtain ⟨e, he, hkey⟩ := List.mem_map.mp hmem
        obtain ⟨m, -, hentry⟩ := List.mem_filterMap.mp he
        obtain ⟨a, ha, rfl⟩ := Option.map_eq_some_iff.mp hentry
        rw [← hkey, ha] at hf
        cases hf
      | some a => exact (get?_cons _).trans (if_pos rfl)
    · have ih := ih ((List.mem_cons.mp h).resolve_left (Ne.symm hn))
      cases f n with
      | none => exact ih
      | some a => exact (get?_cons _).trans ((if_neg hn).trans ih)

lemma nodup_keys_ofNames {names : List String} (f : String → Option α) (h : names.Nodup) :
    (ofNames names f).keys.Nodup := by
  induction names with
  | nil => exact List.nodup_nil
  | cons n names ih =>
    obtain ⟨hn, hnames⟩ := List.nodup_cons.mp h
    rw [ofNames, List.filterMap_cons]
    cases f n with
    | none => exact ih hnames
    | some a => exact List.nodup_cons.mpr ⟨fun hmem => hn (mem_keys_ofNames hmem), ih hnames⟩

lemma get?_foldl_put (name : β → String) (value : β → α) (items : List β) (entries : Keyed α)
    (key : String) :
    (items.foldl (fun es b => put (name b) (value b) es) entries).get? key =
      ((latest name key items).map value).or (entries.get? key) := by
  induction items generalizing entries with
  | nil => rfl
  | cons b items ih =>
    rw [List.foldl_cons, ih, latest_cons, get?_put]
    cases latest name key items with
    | some c => rfl
    | none => by_cases h : name b = key <;> simp [h]

lemma keys_put (key : String) (a : α) (entries : Keyed α) :
    (put key a entries).keys = if key ∈ entries.keys then entries.keys else entries.keys ++ [key] := by
  induction entries with
  | nil => simp [put, keys]
  | cons e entries ih =>
    rw [put]
    split
    · next h => simp [keys, h]
    · next h =>
      have hne : key ≠ e.1 := Ne.symm h
      simp only [keys, List.map_cons, List.mem_cons, hne, false_or] at ih ⊢
      rw [ih]
      exact apply_ite (e.1 :: ·) _ _ _

lemma keys_ofList (key : α → String) (items : List α) :
    (ofList key items).keys = (items.map key).eraseDups := by
  induction items using List.reverseRecOn with
  | nil => rfl
  | append_singleton items a ih =>
    have hput : ofList key (items ++ [a]) = (ofList key items).put (key a) a := by
      rw [ofList, List.foldl_append]
      rfl
    have hmem := mem_keys_ofList key items (key a)
    rw [hput, keys_put, List.map_append, List.eraseDups_append, ← ih]
    generalize items.map key = names at hmem ⊢
    by_cases h : key a ∈ names
    · simp [List.removeAll, hmem.mpr h, h]
    · simp [List.removeAll, mt hmem.mp h, h, List.eraseDups_cons]

lemma nodup_keys_ofList (key : α → String) (items : List α) : (ofList key items).keys.Nodup :=
  List.foldlRecOn (motive := fun es : Keyed α => es.keys.Nodup) items _ List.nodup_nil
    fun _ h a _ => nodup_keys_put (key a) a h

lemma values_eq_filterMap (h : entries.keys.Nodup) :
    entries.values = entries.keys.filterMap entries.get? := by
  rw [keys, List.filterMap_map, List.filterMap_congr (g := fun e => some e.2), values,
    List.filterMap_eq_map']
  exact fun e he => get?_of_mem h he

lemma values_ofList_eq (key : α → String) (items : List α) :
    (ofList key items).values =
      (items.map key).eraseDups.filterMap fun k => latest key k items := by
  rw [values_eq_filterMap (nodup_keys_ofList key items), keys_ofList]
  refine List.filterMap_congr fun k _ => ?_
  exact (get?_foldl_put key id items [] k).trans (by simp [get?])

lemma put_map (f : α → β) (key : String) (value : α) (entries : Keyed α) :
    put key (f value) (entries.map fun e => (e.1, f e.2)) =
      (put key value entries).map fun e => (e.1, f e.2) := by
  induction entries with
  | nil => rfl
  | cons e entries ih =>
    rw [List.map_cons, put, put]
    split
    · rfl
    · exact congrArg (_ :: ·) ih

lemma get?_map (f : α → β) (key : String) (entries : Keyed α) :
    get? (entries.map fun e => (e.1, f e.2)) key = (get? entries key).map f := by
  induction entries with
  | nil => rfl
  | cons e entries ih =>
    rw [get?, List.map_cons, List.lookup_cons, get?, List.lookup_cons]
    cases key == e.1 with
    | true => rfl
    | false => exact ih

end Lookup

end Keyed

end Tablewright
