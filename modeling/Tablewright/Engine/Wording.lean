import Tablewright.Engine.Lock

namespace Tablewright

variable {p l r : List Char} {c : Char}

theorem Text.containsChars_iff : Text.containsChars p l = true ↔ p <:+: l := by
  induction l with
  | nil => rw [containsChars, List.isEmpty_iff, List.infix_nil]
  | cons c l ih =>
    rw [containsChars, Bool.or_eq_true, List.isPrefixOf_iff_prefix, ih, List.infix_cons_iff]

theorem infix_append_cons_iff (h : c ∉ p) : p <:+: l ++ c :: r ↔ p <:+: l ∨ p <:+: r := by
  constructor
  · rintro ⟨front, back, heq⟩
    -- what overlaps both sides would have the character in it
    rw [List.append_assoc, List.append_eq_append_iff] at heq
    obtain ⟨rest, rfl, heq⟩ | ⟨rest, rfl, heq⟩ := heq
    · rw [List.append_eq_append_iff] at heq
      obtain ⟨rest', rfl, -⟩ | ⟨rest', rfl, heq⟩ := heq
      · exact Or.inl ⟨front, rest', List.append_assoc ..⟩
      · cases rest' with
        | nil => exact Or.inl ⟨front, [], by simp⟩
        | cons a rest' =>
          obtain rfl := (List.cons.inj heq).1
          exact absurd (List.mem_append_right _ List.mem_cons_self) h
    · cases rest with
      | nil =>
        cases p with
        | nil => exact Or.inl (List.nil_infix)
        | cons a p =>
          obtain rfl := (List.cons.inj heq).1
          exact absurd List.mem_cons_self h
      | cons a rest =>
        obtain ⟨rfl, rfl⟩ := List.cons.inj heq
        exact Or.inr ⟨rest, back, List.append_assoc ..⟩
  · rintro (hl | hr)
    · exact hl.trans (List.infix_append_left)
    · exact hr.trans ((List.suffix_cons c r).isInfix.trans List.infix_append_right)

namespace Lock

def phrases : List String := ["database is locked", "database is busy"]

def Has (text phrase : String) : Prop := phrase.toList <:+: text.toList.map Text.lowerChar

def Says (text : String) : Prop := ∃ p ∈ phrases, Has text p

theorem isLockText_iff {text : String} : isLockText text = true ↔ Says text := by
  simp only [isLockText, Bool.or_eq_true, Text.contains, Text.containsChars_iff, Text.lowercase,
    String.toList_ofList, Says, Has, phrases, List.mem_cons, List.not_mem_nil, or_false,
    exists_eq_or_imp, exists_eq_left]

section Framing

variable (hp : ∃ rest, p = 'd' :: rest)

include hp

theorem not_infix_of_notMem (h : 'd' ∉ l) : ¬ p <:+: l := by
  obtain ⟨rest, rfl⟩ := hp
  exact fun hfound => h (hfound.subset List.mem_cons_self)

theorem infix_space_cons_iff : p <:+: ' ' :: r ↔ p <:+: r := by
  obtain ⟨rest, rfl⟩ := hp
  rw [List.infix_cons_iff, or_iff_right]
  intro hprefix
  exact absurd (List.cons_prefix_cons.mp hprefix).1 (by decide)

theorem infix_label_iff (hc : c ∉ p) (hl : 'd' ∉ l) : p <:+: l ++ c :: ' ' :: r ↔ p <:+: r := by
  rw [infix_append_cons_iff hc, or_iff_right (not_infix_of_notMem hp hl), infix_space_cons_iff hp]

end Framing

theorem phrase_eq {p : String} (h : p ∈ phrases) : ∃ rest, p.toList = 'd' :: rest := by
  simp only [phrases, List.mem_cons, List.not_mem_nil, or_false] at h
  rcases h with rfl | rfl
  · exact ⟨_, rfl⟩
  · exact ⟨_, rfl⟩

theorem notMem_phrase {p : String} (h : p ∈ phrases) :
    ')' ∉ p.toList ∧ '\n' ∉ p.toList ∧ ':' ∉ p.toList ∧ ']' ∉ p.toList := by
  revert p
  decide

theorem errorText_eq (message sql : String) (values : List Value) : errorText message sql values =
    "(builtins.Exception) " ++ message ++ "\n[SQL: " ++ sql ++ "]" ++
      if values.isEmpty then "" else "\n[parameters: " ++ shownParameters values ++ "]" := rfl

theorem has_errorText_iff {p message sql : String} {values : List Value} (h : p ∈ phrases) :
    Has (errorText message sql values) p ↔
      Has message p ∨ Has sql p ∨ (values ≠ [] ∧ Has (shownParameters values) p) := by
  obtain ⟨hround, hline, hcolon, hsquare⟩ := notMem_phrase h
  have hd := phrase_eq h
  have hkind : "(builtins.Exception) ".toList.map Text.lowerChar =
      "(builtins.exception".toList ++ [')', ' '] := by decide +kernel
  have hsql : "\n[SQL: ".toList.map Text.lowerChar = '\n' :: ("[sql".toList ++ [':', ' ']) := by
    decide +kernel
  have hparameters : "\n[parameters: ".toList.map Text.lowerChar =
      '\n' :: ("[parameters".toList ++ [':', ' ']) := by
    decide +kernel
  have hclosed : "]".toList.map Text.lowerChar = [']'] := by decide +kernel
  have hnone : ¬ p.toList <:+: [] := not_infix_of_notMem hd (by decide)
  have htail : p.toList <:+: (if values.isEmpty then ""
      else "\n[parameters: " ++ shownParameters values ++ "]").toList.map Text.lowerChar ↔
        values ≠ [] ∧ Has (shownParameters values) p := by
    cases values with
    | nil => exact iff_of_false hnone (fun hne => hne.1 rfl)
    | cons v values =>
      rw [List.isEmpty_cons, if_neg Bool.false_ne_true, and_iff_right (List.cons_ne_nil v values)]
      simp only [String.toList_append, List.map_append, hparameters, hclosed, List.append_assoc,
        List.cons_append, List.nil_append]
      rw [← List.cons_append, infix_label_iff hd hcolon (by decide),
        infix_append_cons_iff hsquare, or_iff_left hnone, Has]
  -- each label between the parts ends in characters that no phrase has, so none reaches across
  rw [errorText_eq, Has]
  simp only [String.toList_append, List.map_append, hkind, hsql, hclosed, List.append_assoc,
    List.cons_append, List.nil_append]
  rw [infix_label_iff hd hround (by decide), infix_append_cons_iff hline,
    infix_label_iff hd hcolon (by decide), infix_append_cons_iff hsquare, htail]
  rfl

theorem says_errorText_iff {message sql : String} {values : List Value} :
    Says (errorText message sql values) ↔
      Says message ∨ Says sql ∨ (values ≠ [] ∧ Says (shownParameters values)) := by
  constructor
  · rintro ⟨p, hp, h⟩
    obtain h | h | ⟨hne, h⟩ := (has_errorText_iff hp).mp h
    · exact Or.inl ⟨p, hp, h⟩
    · exact Or.inr (Or.inl ⟨p, hp, h⟩)
    · exact Or.inr (Or.inr ⟨hne, p, hp, h⟩)
  · rintro (⟨p, hp, h⟩ | ⟨p, hp, h⟩ | ⟨hne, p, hp, h⟩)
    · exact ⟨p, hp, (has_errorText_iff hp).mpr (Or.inl h)⟩
    · exact ⟨p, hp, (has_errorText_iff hp).mpr (Or.inr (Or.inl h))⟩
    · exact ⟨p, hp, (has_errorText_iff hp).mpr (Or.inr (Or.inr ⟨hne, h⟩))⟩

/-- How the errors of an engine are worded: the text of each, which has the message, the statement
and its values in it, and the values as they are shown there. Whatever else stands in a text has no
part in saying that the database is locked. -/
structure Wording where
  text : String → String → List Value → String
  shown : List Value → String
  says_text_iff {message sql : String} {values : List Value} :
    Says (text message sql values) ↔
      Says message ∨ Says sql ∨ (values ≠ [] ∧ Says (shown values))

def wording : Wording := ⟨errorText, shownParameters, says_errorText_iff⟩

end Lock

end Tablewright
