import Tablewright.Proofs.Schema.Keyed
import Tablewright.Proofs.Settings.Closed
import Tablewright.Settings.Layer

namespace Tablewright

def Layer.ofKeyed (entries : Keyed Value) : Layer := entries.map fun e => (.text e.1, e.2)

open Layer (ofKeyed)

namespace Value

lemma sameKey_text (a b : String) : (text a).sameKey (text b) = (a == b) := by
  simp [sameKey, asNumber?]

lemma find?_ofKeyed (name : String) (entries : Keyed Value) :
    find? name (ofKeyed entries) = entries.get? name := by
  induction entries with
  | nil => rfl
  | cons e entries ih =>
    rw [find?] at ih ⊢
    rw [ofKeyed, List.map_cons, List.find?_cons, sameKey_text, Keyed.get?, List.lookup_cons,
      BEq.comm]
    cases name == e.1 with
    | true => rfl
    | false => exact ih

lemma put_ofKeyed (key : String) (v : Value) (entries : Keyed Value) :
    put (.text key) v (ofKeyed entries) = ofKeyed (entries.put key v) := by
  induction entries with
  | nil => rfl
  | cons e entries ih =>
    rw [ofKeyed, List.map_cons, put, sameKey_text, Keyed.put]
    by_cases h : e.1 = key
    · simp [h, ofKeyed]
    · simpa [h, ofKeyed] using ih

end Value

namespace Keyed

def overlaid : (higher lower : Option Value) → Option Value
  | some v, some old => some (Layer.overlayValue v old)
  | some v, none => some v
  | none, old => old

def overlay : (higher lower : Keyed Value) → Keyed Value
  | [], lower => lower
  | e :: rest, lower =>
    overlay rest (lower.put e.1 ((lower.get? e.1).elim e.2 (Layer.overlayValue e.2)))

lemma get?_overlay {higher : Keyed Value} (h : higher.keys.Nodup) (lower : Keyed Value)
    (key : String) :
    (higher.overlay lower).get? key = overlaid (higher.get? key) (lower.get? key) := by
  induction higher generalizing lower with
  | nil => rfl
  | cons e higher ih =>
    obtain ⟨hnew, hrest⟩ := List.nodup_cons.mp h
    rw [overlay, ih hrest, get?_put, get?_cons]
    by_cases hkey : e.1 = key
    · subst hkey
      rw [get?_eq_none_iff.mpr hnew, if_pos rfl, if_pos rfl]
      cases lower.get? e.1 <;> rfl
    · rw [if_neg hkey, if_neg hkey]

lemma mem_keys_overlay {higher lower : Keyed Value} {key : String}
    (h : key ∈ (higher.overlay lower).keys) : key ∈ higher.keys ∨ key ∈ lower.keys := by
  induction higher generalizing lower with
  | nil => exact Or.inr h
  | cons e higher ih =>
    obtain h | h := ih h
    · exact Or.inl (List.mem_cons_of_mem _ h)
    · obtain h | rfl := (mem_keys_put _ _ _ _).mp h
      · exact Or.inr h
      · exact Or.inl List.mem_cons_self

lemma nodup_keys_overlay {higher lower : Keyed Value} (h : lower.keys.Nodup) :
    (higher.overlay lower).keys.Nodup := by
  induction higher generalizing lower with
  | nil => exact h
  | cons e higher ih => exact ih (nodup_keys_put _ _ h)

end Keyed

lemma Layer.go_ofKeyed (higher lower : Keyed Value) :
    overlayValue.go (ofKeyed higher) (ofKeyed lower) = ofKeyed (higher.overlay lower) := by
  induction higher generalizing lower with
  | nil => simp [ofKeyed, overlayValue.go, Keyed.overlay]
  | cons e higher ih =>
    have hfind : ((ofKeyed lower).find? fun p => p.1.sameKey (.text e.1)).map (·.2) =
        lower.get? e.1 := Value.find?_ofKeyed e.1 lower
    rw [ofKeyed, List.map_cons, overlayValue.go, Keyed.overlay, ← ih, ← hfind,
      ← Value.put_ofKeyed]
    cases (ofKeyed lower).find? fun p => p.1.sameKey (.text e.1) <;> rfl

section Sections

open Value

variable {names : List String}

/-- A value that is no map and refers to no container around it. -/
structure Value.Plain (v : Value) : Prop where
  closed : v.Closed
  ne_map : ∀ entries, v ≠ .map entries

structure Keyed.Fields (names : List String) (fields : Keyed Value) : Prop where
  known : ∀ k ∈ fields.keys, k ∈ names
  nodup : fields.keys.Nodup
  plain : ∀ e ∈ fields, e.2.Plain

def Value.field? (name : String) : Value → Option Value
  | map entries => find? name entries
  | _ => none

lemma overlayValue_of_ne_map {v : Value} (h : ∀ entries, v ≠ .map entries) (old : Value) :
    Layer.overlayValue v old = v := by
  cases v with
  | map entries => exact absurd rfl (h entries)
  | _ => simp [Layer.overlayValue]

namespace Keyed

variable {higher lower : Keyed Value}

lemma Fields.freeEntries_eq (h : lower.Fields names) :
    freeEntries (ofKeyed lower) = ofKeyed lower :=
  freeEntries_of_closed (List.forall_mem_map.mpr fun e he => (h.plain e he).closed)

lemma plain_overlay (hhigher : ∀ e ∈ higher, e.2.Plain) (hlower : ∀ e ∈ lower, e.2.Plain) :
    ∀ e ∈ higher.overlay lower, e.2.Plain := by
  induction higher generalizing lower with
  | nil => exact hlower
  | cons e higher ih =>
    rw [List.forall_mem_cons] at hhigher
    refine ih hhigher.2 fun d hd => ?_
    obtain rfl | hd := mem_put _ _ _ _ hd
    · cases lower.get? e.1 with
      | none => exact hhigher.1
      | some old =>
        change (Layer.overlayValue e.2 old).Plain
        rw [overlayValue_of_ne_map hhigher.1.ne_map]
        exact hhigher.1
    · exact hlower d hd

lemma Fields.overlay (hhigher : higher.Fields names) (hlower : lower.Fields names) :
    (higher.overlay lower).Fields names where
  known k hk := (mem_keys_overlay hk).elim (hhigher.known k) (hlower.known k)
  nodup := nodup_keys_overlay hlower.nodup
  plain := plain_overlay hhigher.plain hlower.plain

lemma Fields.get?_overlay (hhigher : higher.Fields names) (name : String) :
    (higher.overlay lower).get? name = (higher.get? name).or (lower.get? name) := by
  rw [Keyed.get?_overlay hhigher.nodup]
  cases hget : higher.get? name with
  | none => cases lower.get? name <;> rfl
  | some v =>
    have hv := (hhigher.plain _ (mem_of_get? hget)).ne_map
    cases lower.get? name with
    | none => rfl
    | some old => exact congrArg some (overlayValue_of_ne_map hv old)

end Keyed

def IsSection (names : List String) (v : Option Value) : Prop :=
  ∀ w ∈ v, ∃ fields : Keyed Value, w = .map (ofKeyed fields) ∧ fields.Fields names

lemma IsSection.overlaid {higher lower : Option Value} (hhigher : IsSection names higher)
    (hlower : IsSection names lower) :
    IsSection names (Keyed.overlaid higher lower) ∧ ∀ name,
      (Keyed.overlaid higher lower).bind (field? name) =
        (higher.bind (field? name)).or (lower.bind (field? name)) := by
  cases higher with
  | none => cases lower <;> exact ⟨hlower, fun _ => rfl⟩
  | some v =>
    cases lower with
    | none => exact ⟨hhigher, fun _ => (Option.or_none).symm⟩
    | some old =>
      obtain ⟨fields, rfl, hfields⟩ := hhigher v rfl
      obtain ⟨others, rfl, hothers⟩ := hlower old rfl
      have hmerged : Layer.overlayValue (map (ofKeyed fields)) (map (ofKeyed others)) =
          map (ofKeyed (fields.overlay others)) := by
        rw [Layer.overlayValue, hothers.freeEntries_eq, Layer.go_ofKeyed]
      constructor
      · rintro _ ⟨⟩
        exact ⟨_, hmerged, hfields.overlay hothers⟩
      · intro name
        rw [Keyed.overlaid, hmerged]
        simp only [field?, find?_ofKeyed, Option.bind_some]
        exact hfields.get?_overlay name

namespace Layer

def section? (layer : Layer) (name : String) : Option Value :=
  (layer.find? (isNamed name)).map (·.2)

def given? (layer : Layer) (sectionName name : String) : Option Value :=
  (layer.section? sectionName).bind (field? name)

def Regular (layer : Layer) : Prop :=
  ∀ e ∈ layer, ∃ s ∈ Environment.sections, isNamed s.1 e ∧
    ∃ fields : Keyed Value, e.2 = .map (ofKeyed fields) ∧ (∀ k ∈ fields.keys, k ∈ s.2.1) ∧
      fields.keys.Nodup

lemma isNamed_iff {name : String} {e : Value × Value} :
    isNamed name e ↔ ∃ key, e.1 = .text key ∧ Text.lowercase name = Text.lowercase key := by
  rw [isNamed]
  split
  · next key hkey => simp [hkey, sameName]
  · next hkey => exact ⟨nofun, fun ⟨key, h, _⟩ => absurd h (hkey key)⟩

lemma section_unique {s t : String × List String × List String} (hs : s ∈ Environment.sections)
    (ht : t ∈ Environment.sections) {e : Value × Value} (hse : isNamed s.1 e)
    (hte : isNamed t.1 e) : s = t := by
  obtain ⟨key, hkey, hskey⟩ := isNamed_iff.mp hse
  obtain ⟨key', hkey', htkey⟩ := isNamed_iff.mp hte
  obtain rfl := Value.text.inj (hkey.symm.trans hkey')
  have hdistinct : ∀ s ∈ Environment.sections, ∀ t ∈ Environment.sections,
      Text.lowercase s.1 = Text.lowercase t.1 → s = t := by decide +kernel
  exact hdistinct s hs t ht (hskey.trans htkey.symm)

variable {layer : Layer} {s : String × List String × List String}

lemma Regular.isSection (h : layer.Regular) (hs : s ∈ Environment.sections)
    (hplain : ∀ name ∈ s.2.1, ∀ v ∈ layer.given? s.1 name, v.Plain) :
    IsSection s.2.1 (layer.section? s.1) := by
  intro v hv
  obtain ⟨e, he, rfl⟩ := Option.map_eq_some_iff.mp hv
  obtain ⟨t, ht, hnamed, fields, hshape, hknown, hnodup⟩ := h e (List.mem_of_find?_eq_some he)
  obtain rfl := section_unique hs ht (List.find?_some he) hnamed
  refine ⟨fields, hshape, hknown, hnodup, fun f hf => ?_⟩
  refine hplain f.1 (hknown _ (List.mem_map_of_mem hf)) f.2 ?_
  rw [given?, hv, Option.mem_def, Option.bind_some, hshape, field?, find?_ofKeyed]
  exact Keyed.get?_of_mem hnodup hf

lemma Regular.withSections (h : layer.Regular) :
    withSections Settings.fieldNames layer =
      ofKeyed (Keyed.ofNames Settings.fieldNames layer.section?) := by
  have hrest : (layer.filter fun e => !Settings.fieldNames.any fun n => isNamed n e) = [] := by
    refine List.filter_eq_nil_iff.mpr fun e he => ?_
    obtain ⟨s, hs, hnamed, -⟩ := h e he
    have hname : s.1 ∈ Settings.fieldNames := List.mem_map_of_mem hs
    simpa using ⟨s.1, hname, hnamed⟩
  rw [Layer.withSections, hrest, List.append_nil, ofKeyed, Keyed.ofNames, List.map_filterMap]
  simp [section?, Function.comp_def]

end Layer

end Sections

end Tablewright
