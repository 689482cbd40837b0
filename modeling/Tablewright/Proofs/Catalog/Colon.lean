import Tablewright.Catalog.ServerDefault
import Tablewright.Proofs.Statement.Scan

/-! Backslashes before colons. Outside quotes and comments a backslash is a fault, and inside them
the outline of a text does not depend on it. So a text that is read without fault keeps its outline
when they are taken away. -/

namespace Tablewright

def Token.outline : Token → Token
  | name _ => name []
  | text _ => text []
  | t => t

namespace Scan

variable {s s' : Scan} {c : Char} {cs : List Char}

def outline : Scan → Scan
  | reading (.quoted quote _) => reading (.quoted quote [])
  | reading (.closing quote _) => reading (.closing quote [])
  | named close _ => named close []
  | backtick _ => backtick []
  | s => s

def outlines (r : List Token × Scan) : List Token × Scan := (r.1.map Token.outline, r.2.outline)

def Quotes : Scan → Prop
  | reading m => m.Quotes
  | named close _ => close = ']' ∨ close = '`'
  | _ => True

section Steps

lemma ne_settle {m : Reading} (h : m.finish ≠ []) (m' : Reading) (c : Char) :
    ([], m') ≠ m.settle c := by
  intro heq
  have hread : m.finish ++ (Reading.start c).1 = [] := (congrArg Prod.fst heq).symm
  exact h (List.append_eq_nil_iff.mp hread).1

lemma next_quoted (quote : Char) (read : List Char) (c : Char) :
    (reading (.quoted quote read)).next c =
      ([], reading (if c = quote then .closing quote read else .quoted quote (c :: read))) := by
  rw [next, if_neg (by simp), if_neg (by simp), Reading.next,
    if_neg (ne_settle (m := .quoted quote read) (List.cons_ne_nil _ _) _ c)]

lemma next_closing (quote : Char) (read : List Char) (c : Char) :
    (reading (.closing quote read)).next c =
      if c = quote then ([], reading (.quoted quote (c :: read)))
      else settle (reading (.closing quote read)) c := by
  rw [next, if_neg (by simp), if_neg (by simp), Reading.next]
  by_cases hquote : c = quote
  · rw [if_pos hquote, if_pos hquote,
      if_neg (ne_settle (m := .closing quote read) (List.cons_ne_nil _ _) _ c)]
  · rw [if_neg hquote, if_neg hquote, if_pos rfl]

lemma next_blob {read : List Char} (hc : c ≠ '\'') :
    (reading (.blob read)).next c = ([], reading (.blob (c :: read))) := by
  rw [next, if_neg (by simp), if_neg (by simp), Reading.next, if_neg hc,
    if_neg (ne_settle (m := .blob read) (List.cons_ne_nil _ _) _ c)]

lemma quotes_start (c : Char) : (start c).2.Quotes := by
  rw [start]
  split_ifs
  · exact trivial
  · exact Or.inl rfl
  · exact Or.inr rfl
  · exact trivial
  · exact trivial
  · exact Reading.quotes_start c

lemma quotes_next (h : s.Quotes) (c : Char) : (s.next c).2.Quotes := by
  have hstart := quotes_start c
  cases s with
  | reading m =>
    rw [next]
    split_ifs
    · exact trivial
    · exact trivial
    · exact hstart
    · exact Reading.quotes_next h c
  | named close read =>
    rw [next]
    split_ifs
    · exact h
    · exact trivial
    · exact trivial
  | point | hex read | backtick read | stroke =>
    rw [next]
    split_ifs
    all_goals first | exact trivial | exact hstart | exact Or.inr rfl
  | line | block | asterisk =>
    rw [next]
    split_ifs <;> exact trivial

lemma quotes_run (h : s.Quotes) (cs : List Char) : (s.run cs).2.Quotes := by
  induction cs generalizing s with
  | nil => exact h
  | cons c cs ih => exact ih (quotes_next h c)

lemma finish_outline (s : Scan) :
    s.outline.finish.map Token.outline = s.finish.map Token.outline := by
  cases s with
  | reading m =>
    cases m with
    | closing quote read =>
      rw [outline, finish, finish, Reading.finish, Reading.finish]
      split_ifs <;> rfl
    | _ => rfl
  | _ => rfl

lemma settle_outline (s : Scan) (c : Char) :
    outlines (s.outline.settle c) = outlines (s.settle c) := by
  rw [outlines, outlines, settle, settle, List.map_append, List.map_append, finish_outline]

lemma next_outline (s : Scan) (c : Char) : outlines (s.outline.next c) = outlines (s.next c) := by
  have hsettle := settle_outline s c
  cases s with
  | reading m =>
    cases m with
    | quoted quote read =>
      rw [outline, next_quoted, next_quoted]
      split_ifs <;> rfl
    | closing quote read =>
      rw [outline] at hsettle ⊢
      rw [next_closing, next_closing]
      split_ifs
      · rfl
      · exact hsettle
    | _ => rfl
  | named close read =>
    rw [outline, next, next]
    split_ifs <;> rfl
  | backtick read =>
    rw [outline] at hsettle ⊢
    rw [next, next]
    split_ifs
    · rfl
    · exact hsettle
  | _ => rfl

lemma next_alike (h : s'.outline = s.outline) (c : Char) :
    outlines (s'.next c) = outlines (s.next c) := by
  rw [← next_outline s', h, next_outline]

lemma run_cons_alike {ds : List Char} (hnext : outlines (s'.next c) = outlines (s.next c))
    (hrun : outlines ((s'.next c).2.run ds) = outlines ((s.next c).2.run cs)) :
    outlines (s'.run (c :: ds)) = outlines (s.run (c :: cs)) := by
  simp only [outlines, Prod.mk.injEq] at hnext hrun
  rw [outlines, outlines, run, run, List.map_append, List.map_append, hnext.1, hrun.1, hrun.2]

lemma ends_outline (h : s.Quotes) : s.outline.ends = s.ends := by
  cases s with
  | reading m =>
    cases m with
    | quoted quote read => simp [outline, ends, next_quoted, settle, finish, Reading.finish]
    | closing quote read => rcases h with rfl | rfl <;> simp [outline, ends, next_closing]
    | _ => rfl
  | named close read => rcases h with rfl | rfl <;> simp [outline, ends, next, settle, finish]
  | backtick read => simp [outline, ends, next]
  | _ => rfl

end Steps

section Backslash

open ServerDefault (plainColons)

def Keeps : Scan → Prop
  | reading (.quoted _ _) | named _ _ | line | block | asterisk => True
  | _ => False

lemma bad_of_settle (s : Scan) : .bad ∈ (s.settle '\\').1 :=
  List.mem_append_right _ (by decide)

lemma bad_of_blob {read : List Char} (h : read.all Reading.isHex = false) (cs : List Char) :
    .bad ∈ scanFrom (reading (.blob read)) cs := by
  induction cs generalizing read with
  | nil => exact List.mem_singleton_self _
  | cons c cs ih =>
    rw [scanFrom_cons]
    by_cases hc : c = '\''
    · have hclosing : .bad ∈ ((reading (.blob read)).next '\'').1 := by
        rw [next, if_neg (by simp), if_neg (by simp), Reading.next, if_pos rfl, h, Bool.false_and,
          if_neg Bool.false_ne_true]
        split_ifs <;> exact List.mem_cons_self
      exact List.mem_append_left _ (hc ▸ hclosing)
    · rw [next_blob hc]
      exact ih (by rw [List.all_cons, h, Bool.and_false])

lemma bad_of_backslash (hs : s.Quotes) (h : ¬ s.Keeps) (cs : List Char) :
    .bad ∈ scanFrom s ('\\' :: cs) := by
  have hbad (hsettle : s.next '\\' = s.settle '\\') : .bad ∈ scanFrom s ('\\' :: cs) := by
    rw [scanFrom_cons, hsettle]
    exact List.mem_append_left _ (bad_of_settle s)
  cases s with
  | reading m =>
    have hstops (h : m.next '\\' = m.settle '\\') : .bad ∈ scanFrom (reading m) ('\\' :: cs) :=
      hbad (next_reading_settle (by decide) h)
    cases m with
    | quoted quote read => exact absurd trivial h
    | blob read =>
      -- the fault is found where the bytes end
      rw [scanFrom_cons, next_blob (by decide)]
      exact bad_of_blob (by rw [List.all_cons]; rfl) cs
    | ready => exact hstops rfl
    | word read =>
      exact hstops (by simp [Reading.next, Reading.continuesWord, Reading.startsWord])
    | number part read => exact hstops (by cases part <;> rfl)
    | closing quote read => rcases hs with rfl | rfl <;> exact hstops (by simp [Reading.next])
    | pending d => exact hstops (by simp [Reading.next, Reading.pair?])
  | point | hex read | backtick read | stroke => exact hbad rfl
  | named close read | line | block | asterisk => exact absurd trivial h

lemma next_backslash (hs : s.Quotes) (h : s.Keeps) :
    outlines (s.next ':') = outlines (s.run ['\\', ':']) ∧ (s.run ['\\', ':']).1 = [] := by
  cases s with
  | reading m =>
    cases m with
    | quoted quote read =>
      rcases hs with rfl | rfl <;> simp [run, next_quoted, outlines, outline]
    | _ => exact h.elim
  | named close read => rcases hs with rfl | rfl <;> simp [run, next, outlines, outline]
  | line | block | asterisk => exact ⟨rfl, rfl⟩
  | _ => exact h.elim

lemma step_alike (hs : s.Quotes) (hs' : s'.outline = s.outline) (h : .bad ∉ scanFrom s (c :: cs)) :
    outlines (s'.next c) = outlines (s.next c) ∧ (s.next c).2.Quotes ∧
      (s'.next c).2.outline = (s.next c).2.outline ∧ .bad ∉ scanFrom (s.next c).2 cs := by
  have hnext := next_alike hs' c
  rw [scanFrom_cons] at h
  exact ⟨hnext, quotes_next hs c, congrArg Prod.snd hnext,
    fun hbad => h (List.mem_append_right _ hbad)⟩

lemma run_plainColons (hs : s.Quotes) (hs' : s'.outline = s.outline) (h : .bad ∉ scanFrom s cs) :
    outlines (s'.run (plainColons cs)) = outlines (s.run cs) := by
  fun_induction plainColons cs generalizing s s' with
  | case1 => exact congrArg (Prod.mk []) hs'
  | case2 rest hkept ih =>
    obtain ⟨hnext, hs, hs', h⟩ := step_alike hs hs' h
    obtain ⟨hcolon, hs, hs', h⟩ := step_alike hs hs' h
    exact run_cons_alike hnext (run_cons_alike hcolon (ih hs hs' h))
  | case3 rest hplain ih =>
    have hkeeps : s.Keeps := by
      by_contra hnot
      exact h (bad_of_backslash hs hnot _)
    obtain ⟨hcolon, hnothing⟩ := next_backslash hs hkeeps
    obtain ⟨-, hs₁, -, h₁⟩ := step_alike hs rfl h
    obtain ⟨-, hs₂, -, h₂⟩ := step_alike hs₁ rfl h₁
    have hnext := (next_alike hs' ':').trans hcolon
    have hrest := ih hs₂ (congrArg Prod.snd hnext) h₂
    -- one side goes on behind the colon, the other behind the backslash and the colon
    have hskip : s.run ('\\' :: ':' :: rest) = (s.run ['\\', ':']).2.run rest := by
      have happend := run_append s ['\\', ':'] rest
      rwa [hnothing] at happend
    have htokens : (outlines (s'.next ':')).1 = [] := by
      rw [hnext, outlines, hnothing, List.map_nil]
    rw [hskip, outlines, run, List.map_append,
      show (s'.next ':').1.map Token.outline = [] from htokens]
    exact hrest
  | case4 c rest hne ih =>
    obtain ⟨hnext, hs, hs', h⟩ := step_alike hs hs' h
    exact run_cons_alike hnext (ih hs hs' h)

end Backslash

end Scan

lemma scan_plainColons {sql plain : String} (h : .bad ∉ scan sql)
    (hplain : plain = String.ofList (ServerDefault.plainColons sql.toList)) :
    (scan plain).map Token.outline = (scan sql).map Token.outline ∧ settles plain = settles sql := by
  have hquotes (cs : List Char) := Scan.quotes_run (s := .reading .ready) trivial cs
  have hrun := Scan.run_plainColons (s := .reading .ready) trivial rfl h
  rw [← String.toList_ofList (l := ServerDefault.plainColons sql.toList), ← hplain] at hrun
  simp only [Scan.outlines, Prod.mk.injEq] at hrun
  obtain ⟨htokens, hstate⟩ := hrun
  refine ⟨?_, ?_⟩
  · rw [scan, scanFrom, scan, scanFrom, List.map_append, List.map_append, htokens,
      ← Scan.finish_outline, hstate, Scan.finish_outline]
  · rw [settles, settles, ← Scan.ends_outline (hquotes _), hstate, Scan.ends_outline (hquotes _)]

end Tablewright
