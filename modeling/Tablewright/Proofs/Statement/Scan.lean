import Tablewright.Proofs.Statement.Definition

/-! The tokens of SQL text where a column has a default. Beside what statements have, a default may
have comments, names in brackets or backticks, numbers in base sixteen or without digits before the
point, and further operators. Where a text has nothing of this it is read as before. -/

namespace Tablewright

inductive Scan where
  | reading (m : Reading)
  | point
  | hex (read : List Char)
  | named (close : Char) (read : List Char)
  | backtick (read : List Char)
  | stroke
  | line
  | block
  | asterisk
deriving DecidableEq, Repr

namespace Scan

def finish : Scan → List Token
  | reading m => m.finish
  | point => [.mark '.']
  | hex read => [if read.length ≤ 2 then .bad else .number read.reverse]
  | named _ _ => [.bad]
  | backtick read => [.name read.reverse]
  | stroke => [.mark '/']
  | line | block | asterisk => []

def start (c : Char) : List Token × Scan :=
  if c = '.' then ([], point)
  else if c = '[' then ([], named ']' [])
  else if c = '`' then ([], named '`' [])
  else if c = '/' then ([], stroke)
  else if c ∈ ['+', '%', '&', '|', '~'] then ([.mark c], reading .ready)
  else ((Reading.start c).1, reading (Reading.start c).2)

def settle (s : Scan) (c : Char) : List Token × Scan := (s.finish ++ (start c).1, (start c).2)

def next (s : Scan) (c : Char) : List Token × Scan :=
  match s with
  | reading m =>
    if m = .pending '-' ∧ c = '-' then ([], line)
    else if m = .number .whole ['0'] ∧ (c = 'x' ∨ c = 'X') then ([], hex [c, '0'])
    else if m.next c = m.settle c then settle (reading m) c
    else ((m.next c).1, reading (m.next c).2)
  | point => if c.isDigit then ([], reading (.number .fraction [c, '.'])) else settle point c
  | hex read =>
    if Reading.isHex c then ([], hex (c :: read))
    else if Reading.continuesWord c then ([.bad], reading .ready)
    else settle (hex read) c
  | named close read =>
    if c ≠ close then ([], named close (c :: read))
    else if close = '`' then ([], backtick read)
    else ([.name read.reverse], reading .ready)
  | backtick read => if c = '`' then ([], named '`' (c :: read)) else settle (backtick read) c
  | stroke => if c = '*' then ([], block) else settle stroke c
  | line => ([], if c = '\n' then reading .ready else line)
  | block => ([], if c = '*' then asterisk else block)
  | asterisk => ([], if c = '/' then reading .ready else if c = '*' then asterisk else block)

def run : Scan → List Char → List Token × Scan
  | s, [] => ([], s)
  | s, c :: cs => ((s.next c).1 ++ (run (s.next c).2 cs).1, (run (s.next c).2 cs).2)

/-- Whether the token at hand ends where the definition of a table goes on. -/
def ends (s : Scan) : Bool := [' ', ',', ')'].all fun c => s.next c = s.settle c

end Scan

def scanFrom (s : Scan) (cs : List Char) : List Token := (s.run cs).1 ++ (s.run cs).2.finish

def scan (sql : String) : List Token := scanFrom (.reading .ready) sql.toList

def settles (sql : String) : Bool := ((Scan.reading .ready).run sql.toList).2.ends

def Stands (cs : List Char) (ts : List Token) : Prop :=
  ∀ rest, Ends rest → scanFrom (.reading .ready) (cs ++ rest) = ts ++ scanFrom (.reading .ready) rest

def Token.isPlain : Token → Bool
  | word _ | name _ | text _ => true
  | mark c => ['(', ')', ','].contains c
  | _ => false

namespace Scan

variable {s : Scan} {m m' : Reading} {c : Char} {cs rest : List Char} {ts us : List Token}

lemma run_append (s : Scan) (cs ds : List Char) :
    s.run (cs ++ ds) = ((s.run cs).1 ++ ((s.run cs).2.run ds).1, ((s.run cs).2.run ds).2) := by
  induction cs generalizing s with
  | nil => rfl
  | cons c cs ih => rw [List.cons_append, run, ih, run, List.append_assoc]

lemma scanFrom_append (s : Scan) (cs rest : List Char) :
    scanFrom s (cs ++ rest) = (s.run cs).1 ++ scanFrom (s.run cs).2 rest := by
  rw [scanFrom, run_append, scanFrom, List.append_assoc]

lemma scanFrom_cons (s : Scan) (c : Char) (cs : List Char) :
    scanFrom s (c :: cs) = (s.next c).1 ++ scanFrom (s.next c).2 cs := by
  rw [scanFrom, run, List.append_assoc]
  rfl

lemma next_ready (c : Char) : (reading .ready).next c = start c := by
  have hsettle : Reading.next .ready c = Reading.settle .ready c := by
    rw [Reading.next, Reading.settle, Reading.finish, List.nil_append]
  rw [next, if_neg (by simp), if_neg (by simp), if_pos hsettle, settle, finish, Reading.finish,
    List.nil_append]

lemma scanFrom_settle (h : ∀ c ∈ rest.head?, s.next c = s.settle c) :
    scanFrom s rest = s.finish ++ scanFrom (.reading .ready) rest := by
  cases rest with
  | nil => simp [scanFrom, run, finish, Reading.finish]
  | cons c rest =>
    rw [scanFrom_cons, scanFrom_cons, h c rfl, next_ready, settle, List.append_assoc]

lemma scanFrom_of_ends (h : s.ends = true) (hrest : Ends rest) :
    scanFrom s rest = s.finish ++ scanFrom (.reading .ready) rest := by
  simp only [ends, List.all_cons, List.all_nil, Bool.and_true, Bool.and_eq_true,
    decide_eq_true_eq] at h
  obtain ⟨hblank, hcomma, hclosing⟩ := h
  apply scanFrom_settle
  intro c hc
  rcases hrest c hc with rfl | rfl | rfl
  · exact hblank
  · exact hcomma
  · exact hclosing

lemma stands_of_run (hrun : (reading .ready).run cs = (ts, s)) (h : s.ends = true) :
    Stands cs (ts ++ s.finish) := by
  intro rest hrest
  rw [scanFrom_append, hrun, scanFrom_of_ends h hrest, List.append_assoc]

end Scan

namespace Reading

variable {m : Reading} {c : Char} {cs : List Char}

def Quotes : Reading → Prop
  | quoted quote _ | closing quote _ => quote = '"' ∨ quote = '\''
  | _ => True

lemma quotes_start (c : Char) : (start c).2.Quotes := by
  rw [start]
  split_ifs with _ _ _ hquote
  all_goals first | exact trivial | exact hquote

lemma quotes_next (h : m.Quotes) (c : Char) : (m.next c).2.Quotes := by
  cases m with
  | ready => exact quotes_start c
  | word read =>
    rw [next]
    split_ifs
    all_goals first | exact trivial | exact quotes_start c
  | number part read =>
    rw [next]
    split
    · exact trivial
    · split_ifs
      all_goals first | exact trivial | exact quotes_start c
  | quoted quote read =>
    rw [next]
    split_ifs <;> exact h
  | closing quote read =>
    rw [next]
    split_ifs
    · exact h
    · exact quotes_start c
  | blob read =>
    rw [next]
    split_ifs <;> exact trivial
  | pending d =>
    rw [next]
    split
    · exact trivial
    · exact quotes_start c

lemma quotes_run (h : m.Quotes) (cs : List Char) : (m.run cs).2.Quotes := by
  induction cs generalizing m with
  | nil => exact h
  | cons c cs ih => exact ih (quotes_next h c)

lemma next_eq_settle (h : m.Quotes) (hwhole : .bad ∉ m.finish)
    (hc : c = ' ' ∨ c = ',' ∨ c = ')') : m.next c = m.settle c := by
  cases m with
  | ready => rw [next, settle, finish, List.nil_append]
  | word read => rcases hc with rfl | rfl | rfl <;> simp [next, continuesWord, startsWord]
  | number part read => rcases hc with rfl | rfl | rfl <;> cases part <;> rfl
  | quoted quote read | blob read => exact absurd (List.mem_singleton_self _) hwhole
  | closing quote read =>
    have hne : c ≠ quote := by
      rcases hc with rfl | rfl | rfl <;> rcases h with rfl | rfl <;> decide
    rw [next, if_neg hne]
  | pending d => rcases hc with rfl | rfl | rfl <;> simp [next, pair?]

end Reading

namespace Scan

variable {m : Reading} {c : Char} {cs : List Char} {ts : List Token}

lemma start_eq (h : ∀ t ∈ (Reading.start c).1, t.isPlain = true) :
    start c = ((Reading.start c).1, reading (Reading.start c).2) := by
  rw [start]
  split_ifs with hpoint hbracket hbacktick hstroke hoperator
  · subst hpoint
    exact absurd (h _ List.mem_cons_self) (by decide)
  · subst hbracket
    exact absurd (h _ List.mem_cons_self) (by decide)
  · subst hbacktick
    exact absurd (h _ List.mem_cons_self) (by decide)
  · subst hstroke
    exact absurd (h _ List.mem_cons_self) (by decide)
  · simp only [List.mem_cons, List.not_mem_nil, or_false] at hoperator
    rcases hoperator with rfl | rfl | rfl | rfl | rfl <;>
      exact absurd (h _ List.mem_cons_self) (by decide)
  · rfl

lemma next_reading (h : ∀ t ∈ (m.next c).1, t.isPlain = true) :
    (reading m).next c = ((m.next c).1, reading (m.next c).2) := by
  rw [next]
  split_ifs with hdash hhex hsettle
  · obtain ⟨rfl, rfl⟩ := hdash
    exact absurd (h .bad List.mem_cons_self) (by decide)
  · obtain ⟨rfl, rfl | rfl⟩ := hhex
    · exact absurd (h .bad List.mem_cons_self) (by decide)
    · exact absurd (h .bad List.mem_cons_self) (by decide)
  · rw [hsettle, Reading.settle] at h ⊢
    rw [settle, start_eq fun t ht => h t (List.mem_append_right _ ht), finish]
  · rfl

lemma run_reading (h : ∀ t ∈ (m.run cs).1, t.isPlain = true) :
    (reading m).run cs = ((m.run cs).1, reading (m.run cs).2) := by
  induction cs generalizing m with
  | nil => rfl
  | cons c cs ih =>
    have hhere := next_reading fun t ht => h t (List.mem_append_left _ ht)
    have hrest := ih fun t ht => h t (List.mem_append_right _ ht)
    rw [run, hhere, hrest, Reading.run]

lemma next_reading_settle (hc : c ∉ ['-', 'x', 'X']) (h : m.next c = m.settle c) :
    (reading m).next c = (reading m).settle c := by
  simp only [List.mem_cons, List.not_mem_nil, or_false, not_or] at hc
  obtain ⟨hdash, hlower, hupper⟩ := hc
  rw [next, if_neg fun hc => hdash hc.2, if_neg fun hc => hc.2.elim hlower hupper, if_pos h]

lemma ends_reading (hquotes : m.Quotes) (hwhole : .bad ∉ m.finish) : (reading m).ends = true := by
  have hnext (c : Char) (hc : c = ' ' ∨ c = ',' ∨ c = ')') :
      (reading m).next c = (reading m).settle c := by
    refine next_reading_settle ?_ (Reading.next_eq_settle hquotes hwhole hc)
    rcases hc with rfl | rfl | rfl <;> decide
  simp [ends, hnext]

lemma stands_of_plain (hts : tokensFrom .ready cs = ts) (h : ∀ t ∈ ts, t.isPlain = true) :
    Stands cs ts := by
  have hread : (Reading.ready.run cs).1 ++ (Reading.ready.run cs).2.finish = ts := by
    rw [← hts]
    have happend := tokensFrom_append .ready cs []
    rw [List.append_nil, tokensFrom] at happend
    exact happend.symm
  have hrun : (reading .ready).run cs = _ := run_reading fun t ht =>
    h t (hread ▸ List.mem_append_left _ ht)
  have hwhole : .bad ∉ (Reading.ready.run cs).2.finish := fun hbad =>
    absurd (h _ (hread ▸ List.mem_append_right _ hbad)) (by decide)
  have hquotes : (Reading.ready.run cs).2.Quotes := Reading.quotes_run (m := .ready) trivial cs
  exact hread ▸ stands_of_run hrun (ends_reading hquotes hwhole)

end Scan

lemma stands_of_settles {sql : String} (h : settles sql = true) : Stands sql.toList (scan sql) :=
  Scan.stands_of_run rfl h

lemma Stands.scanFrom_eq {cs : List Char} {ts : List Token} (h : Stands cs ts) :
    scanFrom (.reading .ready) cs = ts := by
  have hall := h [] Ends.nil
  rwa [List.append_nil, scanFrom, scanFrom, Scan.run, Scan.finish, Reading.finish, List.append_nil,
    List.append_nil] at hall

lemma Stands.append {cs ds : List Char} {ts us : List Token} (hc : Stands cs ts) (hd : Stands ds us)
    (hled : Led ds) : Stands (cs ++ ds) (ts ++ us) := by
  intro rest hrest
  rw [List.append_assoc, hc _ (hled rest hrest), hd rest hrest, List.append_assoc]

namespace Sql

variable {s t : Sql} {ts us : List Token}

abbrev Stands (s : Sql) (ts : List Token) : Prop := Tablewright.Stands s.text.toList ts

lemma Spells.stands (h : s.Spells ts) (hts : ∀ t ∈ ts, t.isPlain = true) : s.Stands ts :=
  Scan.stands_of_plain h.tokensFrom_eq hts

lemma Leads.append (hs : s.Leads) (ht : t.Leads) : Leads (s ++ t) := by
  intro rest hrest
  rw [toList_text_append, List.append_assoc]
  exact hs _ (ht rest hrest)

namespace Stands

lemma scan_eq (h : s.Stands ts) : scan s.text = ts := h.scanFrom_eq

lemma append (hs : s.Stands ts) (ht : t.Stands us) (hled : t.Leads) : (s ++ t).Stands (ts ++ us) := by
  rw [Stands, toList_text_append]
  exact Tablewright.Stands.append hs ht hled

lemma word {w : String} (hs : s.Stands us) (ts : List Token)
    (hw : (Scan.reading .ready).run w.toList = (ts, .reading .ready)) :
    Stands (.word w :: s) (ts ++ us) := by
  intro rest hrest
  rw [toList_text_cons, Piece.text, List.append_assoc, Scan.scanFrom_append, hw, hs rest hrest,
    List.append_assoc]

lemma name {n : String} (hs : s.Stands us) (hled : s.Leads) :
    Stands (.name n :: s) (.name n.toList :: us) := by
  have hname : Sql.Spells [.name n] [.name n.toList] := Spells.nil.name .nil
  exact (hname.stands (by simp [Token.isPlain])).append hs hled

lemma commas_map {α : Type} {sql : α → Sql} {tokens : α → List Token} {xs : List α}
    (h : ∀ x ∈ xs, (sql x).Stands (tokens x)) :
    (Sql.commas (xs.map sql)).Stands (commaTokens (xs.map tokens)) := by
  induction xs with
  | nil => exact fun _ _ => rfl
  | cons x xs ih =>
    obtain ⟨hx, hxs⟩ := List.forall_mem_cons.mp h
    cases xs with
    | nil =>
      rw [List.map_singleton, List.map_singleton, Sql.commas, Sql.separated_singleton,
        commaTokens_singleton]
      exact hx
    | cons y xs =>
      have hcomma := (ih hxs).word (w := ", ") [.mark ','] (by decide)
      exact hx.append hcomma (.word ⟨',', by decide, by decide⟩)

end Stands

end Sql

end Tablewright
