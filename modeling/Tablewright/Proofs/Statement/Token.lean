import Tablewright.Proofs.Statement.Literal

/-! The tokens of SQL text. A text is read one character at a time; the state is what has been read of
the token at hand. -/

namespace Tablewright

inductive Token where
  | word (w : List Char)
  | name (n : List Char)
  | text (t : List Char)
  | blob (digits : List Char)
  | number (n : List Char)
  | relation (r : List Char)
  | mark (c : Char)
  | hole
  /-- what no statement has outside quotes -/
  | bad
deriving DecidableEq, Repr

inductive Part where
  | whole
  | fraction
  | mark
  | sign
  | power
deriving DecidableEq, Repr

namespace Part

def next (p : Part) (c : Char) : Option Part :=
  if c.isDigit then some (if p = mark ∨ p = sign then power else p)
  else if c = '.' ∧ p = whole then some fraction
  else if (c = 'e' ∨ c = 'E') ∧ (p = whole ∨ p = fraction) then some mark
  else if (c = '+' ∨ c = '-') ∧ p = mark then some sign
  else none

def isEnd (p : Part) : Bool := p != mark && p != sign

end Part

inductive Reading where
  | ready
  | word (read : List Char)
  | number (part : Part) (read : List Char)
  | quoted (quote : Char) (read : List Char)
  | closing (quote : Char) (read : List Char)
  | blob (read : List Char)
  | pending (c : Char)
deriving DecidableEq, Repr

namespace Reading

def startsWord (c : Char) : Bool := c.isAlpha || c == '_' || 128 ≤ c.toNat

def continuesWord (c : Char) : Bool := startsWord c || c.isDigit || c == '$'

def isHex (c : Char) : Bool := c.isDigit || "abcdefABCDEF".toList.contains c

def finish : Reading → List Token
  | ready => []
  | word read => [.word read.reverse]
  | number part read => [if part.isEnd then .number read.reverse else .bad]
  | quoted _ _ | blob _ => [.bad]
  | closing quote read => [if quote = '"' then .name read.reverse else .text read.reverse]
  | pending c => [if c = '?' then .hole else if c = '-' then .mark c else .relation [c]]

def start (c : Char) : List Token × Reading :=
  if c.isDigit then ([], number .whole [c])
  else if startsWord c then ([], word [c])
  else if c ∈ [' ', '\t', '\n', '\r', '\x0c'] then ([], ready)
  else if c = '"' ∨ c = '\'' then ([], quoted c [])
  else if c ∈ ['<', '>', '=', '!', '-', '?'] then ([], pending c)
  else if c ∈ ['(', ')', ',', '.', '*'] then ([.mark c], ready)
  else ([.bad], ready)

/-- What two characters make together. A comment or a numbered placeholder is nothing that a
statement has. -/
def pair? (c d : Char) : Option Token :=
  if c = '?' then if d.isDigit then some .bad else none
  else if c = '-' then if d = '-' then some .bad else none
  else if d = '=' ∨ d = '>' ∧ c = '<' then some (.relation [c, d])
  else none

def settle (m : Reading) (c : Char) : List Token × Reading := (m.finish ++ (start c).1, (start c).2)

def next (m : Reading) (c : Char) : List Token × Reading :=
  match m with
  | ready => start c
  | word read =>
    if continuesWord c then ([], word (c :: read))
    else if c = '\'' ∧ (read = ['X'] ∨ read = ['x']) then ([], blob [])
    else m.settle c
  | number part read =>
    match part.next c with
    | some part => ([], number part (c :: read))
    | none => if continuesWord c then ([.bad], ready) else m.settle c
  | quoted quote read => ([], if c = quote then closing quote read else quoted quote (c :: read))
  | closing quote read => if c = quote then ([], quoted quote (c :: read)) else m.settle c
  | blob read =>
    if c = '\'' then
      ([if read.all isHex && read.length % 2 == 0 then .blob read.reverse else .bad], ready)
    else ([], blob (c :: read))
  | pending d =>
    match pair? d c with
    | some t => ([t], ready)
    | none => m.settle c

end Reading

def tokensFrom : Reading → List Char → List Token
  | m, [] => m.finish
  | m, c :: rest => (m.next c).1 ++ tokensFrom (m.next c).2 rest

def tokens (sql : String) : List Token := tokensFrom .ready sql.toList

/-- The end, or a character after which no token goes on. -/
def Ends (rest : List Char) : Prop := ∀ c ∈ rest.head?, c = ' ' ∨ c = ',' ∨ c = ')'

/-- A text that reads as the given tokens wherever it stands. -/
def Reads (cs : List Char) (ts : List Token) : Prop :=
  ∀ rest, Ends rest → tokensFrom .ready (cs ++ rest) = ts ++ tokensFrom .ready rest

lemma Ends.nil : Ends [] := by
  intro c hc
  cases hc

lemma ends_blank (rest : List Char) : Ends (' ' :: rest) := by
  intro c hc
  exact Or.inl (Option.some.inj hc).symm

lemma ends_closing (rest : List Char) : Ends (')' :: rest) := by
  intro c hc
  exact Or.inr (Or.inr (Option.some.inj hc).symm)

lemma Ends.head?_ne {rest : List Char} (h : Ends rest) {c : Char} (hc : c = '"' ∨ c = '\'') :
    rest.head? ≠ some c := by
  intro hhead
  rcases h c hhead with rfl | rfl | rfl <;> rcases hc with hc | hc <;> exact absurd hc (by decide)

lemma Reads.tokensFrom_eq {cs : List Char} {ts : List Token} (h : Reads cs ts) :
    tokensFrom .ready cs = ts := by
  have hall := h [] Ends.nil
  rwa [List.append_nil, tokensFrom, Reading.finish, List.append_nil] at hall

lemma tokensFrom_settle {m : Reading} {rest : List Char}
    (h : ∀ c ∈ rest.head?, m.next c = m.settle c) :
    tokensFrom m rest = m.finish ++ tokensFrom .ready rest := by
  cases rest with
  | nil => simp [tokensFrom, Reading.finish]
  | cons c rest =>
    rw [tokensFrom, tokensFrom, h c rfl, Reading.settle, List.append_assoc]
    rfl

lemma tokensFrom_doubled (quote : Char) (s read rest : List Char) :
    tokensFrom (.quoted quote read) (Text.doubleChars quote s ++ quote :: rest) =
      tokensFrom (.closing quote (s.reverse ++ read)) rest := by
  induction s generalizing read with
  | nil => simp [Text.doubleChars, tokensFrom, Reading.next]
  | cons c s ih =>
    by_cases hc : c = quote
    · simp [Text.doubleChars, hc, tokensFrom, Reading.next, ih]
    · simp [Text.doubleChars, hc, tokensFrom, Reading.next, ih]

lemma tokensFrom_enclosed {quote : Char} (hq : quote = '"' ∨ quote = '\'') (s : List Char)
    {rest : List Char} (h : rest.head? ≠ some quote) :
    tokensFrom .ready (quote :: Text.doubleChars quote s ++ quote :: rest) =
      (Reading.closing quote s.reverse).finish ++ tokensFrom .ready rest := by
  have hstart : Reading.start quote = ([], .quoted quote []) := by
    rcases hq with rfl | rfl <;> rfl
  have hclosing : ∀ c ∈ rest.head?, (Reading.closing quote s.reverse).next c =
      (Reading.closing quote s.reverse).settle c := by
    rintro c hc
    have hne : c ≠ quote := by
      rintro rfl
      exact h hc
    simp [Reading.next, hne]
  rw [List.cons_append, tokensFrom, Reading.next, hstart, List.nil_append, tokensFrom_doubled,
    List.append_nil, tokensFrom_settle hclosing]

lemma tokensFrom_name (n : List Char) {rest : List Char} (h : rest.head? ≠ some '"') :
    tokensFrom .ready ('"' :: Text.doubleChars '"' n ++ '"' :: rest) =
      .name n :: tokensFrom .ready rest := by
  rw [tokensFrom_enclosed (Or.inl rfl) n h, Reading.finish, List.reverse_reverse, if_pos rfl]
  rfl

lemma reads_text (t : List Char) : Reads ('\'' :: Text.doubleChars '\'' t ++ ['\'']) [.text t] := by
  intro rest hrest
  rw [List.append_assoc]
  have henclosed := tokensFrom_enclosed (Or.inr rfl) t (hrest.head?_ne (Or.inr rfl))
  rw [Reading.finish, List.reverse_reverse, if_neg (by decide)] at henclosed
  exact henclosed

lemma tokensFrom_of_ends {m : Reading} {rest : List Char} (h : Ends rest)
    (hblank : m.next ' ' = m.settle ' ') (hcomma : m.next ',' = m.settle ',')
    (hclosing : m.next ')' = m.settle ')') :
    tokensFrom m rest = m.finish ++ tokensFrom .ready rest := by
  apply tokensFrom_settle
  intro c hc
  rcases h c hc with rfl | rfl | rfl
  · exact hblank
  · exact hcomma
  · exact hclosing

lemma reads_hole : Reads ['?'] [.hole] := by
  intro rest hrest
  exact tokensFrom_of_ends (m := .pending '?') hrest rfl rfl rfl

lemma tokensFrom_blob {cs : List Char} (h : AllHex cs) (read rest : List Char) :
    tokensFrom (.blob read) (cs ++ '\'' :: rest) =
      tokensFrom (.blob (cs.reverse ++ read)) ('\'' :: rest) := by
  induction cs generalizing read with
  | nil => rfl
  | cons c cs ih =>
    have hc : c ≠ '\'' := by
      rintro rfl
      exact absurd (h _ List.mem_cons_self) (by decide)
    have hrest := ih (fun d hd => h d (List.mem_cons_of_mem _ hd)) (c :: read)
    simp [tokensFrom, Reading.next, hc, hrest]

lemma reads_blob {cs : List Char} (h : AllHex cs) (he : cs.length % 2 = 0) :
    Reads ('X' :: '\'' :: cs ++ ['\'']) [.blob cs] := by
  intro rest hrest
  have hhex : "0123456789abcdef".toList.all Reading.isHex = true := by decide
  have hall : cs.reverse.all Reading.isHex = true := by
    rw [List.all_reverse, List.all_eq_true]
    exact fun c hc => List.all_eq_true.mp hhex c (h c hc)
  have hopen : tokensFrom .ready ('X' :: '\'' :: cs ++ ['\''] ++ rest) =
      tokensFrom (.blob []) (cs ++ '\'' :: rest) := by
    rw [List.append_assoc]
    rfl
  rw [hopen, tokensFrom_blob h, List.append_nil, tokensFrom, Reading.next, if_pos rfl, hall,
    List.length_reverse, he, List.reverse_reverse]
  rfl

lemma Part.next_digit {p : Part} {c : Char} (hc : c.isDigit = true) (hp : p.isEnd = true) :
    p.next c = some p := by
  cases p <;> simp_all [Part.next, Part.isEnd]

lemma tokensFrom_number {part part' : Part} {c : Char} (h : part.next c = some part')
    (read rest : List Char) :
    tokensFrom (.number part read) (c :: rest) = tokensFrom (.number part' (c :: read)) rest := by
  simp [tokensFrom, Reading.next, h]

lemma tokensFrom_digits {part : Part} (hp : part.isEnd = true) {ds : List Char} (h : AllDigits ds)
    (read rest : List Char) :
    tokensFrom (.number part read) (ds ++ rest) =
      tokensFrom (.number part (ds.reverse ++ read)) rest := by
  induction ds generalizing read with
  | nil => rfl
  | cons d ds ih =>
    have hd : d.isDigit = true := h d List.mem_cons_self
    have hrest := ih (fun c hc => h c (List.mem_cons_of_mem _ hc)) (d :: read)
    rw [List.cons_append, tokensFrom_number (Part.next_digit hd hp), hrest, List.reverse_cons,
      List.append_assoc]
    rfl

lemma tokensFrom_ready_digit {c : Char} (h : c.isDigit = true) (rest : List Char) :
    tokensFrom .ready (c :: rest) = tokensFrom (.number .whole [c]) rest := by
  simp [tokensFrom, Reading.next, Reading.start, h]

lemma tokensFrom_whole {ds : List Char} (hne : ds ≠ []) (h : AllDigits ds) (rest : List Char) :
    tokensFrom .ready (ds ++ rest) = tokensFrom (.number .whole ds.reverse) rest := by
  obtain ⟨d, ds, rfl⟩ := List.exists_cons_of_ne_nil hne
  have hends : Part.whole.isEnd = true := rfl
  have hrest := tokensFrom_digits hends (fun c hc => h c (List.mem_cons_of_mem _ hc)) [d] rest
  rw [List.cons_append, tokensFrom_ready_digit (h d List.mem_cons_self), hrest, List.reverse_cons]

lemma NumberText.exists_part {cs : List Char} (h : NumberText cs) :
    ∃ part, part.isEnd = true ∧ (part = .power → 'e' ∈ cs) ∧
      ∀ rest, tokensFrom .ready (cs ++ rest) = tokensFrom (.number part cs.reverse) rest := by
  induction h with
  | whole hne hds =>
    refine ⟨.whole, rfl, ?_, tokensFrom_whole hne hds⟩
    intro hpart
    cases hpart
  | @point ds es hne hds hes =>
    have hpoint : Part.whole.next '.' = some .fraction := rfl
    refine ⟨.fraction, rfl, ?_, fun rest => ?_⟩
    · intro hpart
      cases hpart
    · rw [List.append_assoc, tokensFrom_whole hne hds, List.cons_append,
        tokensFrom_number hpoint, tokensFrom_digits rfl hes]
      simp
  | @power ds es sign hds hnoe hsign hne hes ih =>
    obtain ⟨part, hend, hpower, hread⟩ := ih
    refine ⟨.power, rfl, fun _ => by simp, fun rest => ?_⟩
    have hmark : part.next 'e' = some .mark := by
      cases part with
      | whole | fraction => rfl
      | mark | sign => cases hend
      | power => exact absurd (hpower rfl) hnoe
    have hsigned : Part.mark.next sign = some .sign := by
      rcases hsign with rfl | rfl <;> rfl
    obtain ⟨e, es, rfl⟩ := List.exists_cons_of_ne_nil hne
    have hfirst : Part.sign.next e = some .power := by
      simp [Part.next, hes e List.mem_cons_self]
    rw [List.append_assoc, hread, List.cons_append, tokensFrom_number hmark, List.cons_append,
      tokensFrom_number hsigned, List.cons_append, tokensFrom_number hfirst,
      tokensFrom_digits rfl fun c hc => hes c (List.mem_cons_of_mem _ hc)]
    simp

lemma NumberText.reads {cs : List Char} (h : NumberText cs) : Reads cs [.number cs] := by
  intro rest hrest
  obtain ⟨part, hend, -, hread⟩ := h.exists_part
  have hstop : ∀ {c}, c = ' ' ∨ c = ',' ∨ c = ')' →
      (Reading.number part cs.reverse).next c = (Reading.number part cs.reverse).settle c := by
    intro c hc
    rcases hc with rfl | rfl | rfl <;> cases part <;> rfl
  rw [hread, tokensFrom_settle fun c hc => hstop (hrest c hc), Reading.finish, if_pos hend,
    List.reverse_reverse]

lemma NumberText.head {cs : List Char} (h : NumberText cs) :
    ∃ d ds, cs = d :: ds ∧ d.isDigit = true := by
  have hdigit : ∀ {ds}, ds ≠ [] → AllDigits ds → ∃ d es, ds = d :: es ∧ d.isDigit = true := by
    intro ds hne hds
    obtain ⟨d, es, rfl⟩ := List.exists_cons_of_ne_nil hne
    exact ⟨d, es, rfl, hds d List.mem_cons_self⟩
  induction h with
  | whole hne hds => exact hdigit hne hds
  | point hne hds _ =>
    obtain ⟨d, es, rfl, hd⟩ := hdigit hne hds
    exact ⟨d, _, rfl, hd⟩
  | power _ _ _ _ _ ih =>
    obtain ⟨d, es, rfl, hd⟩ := ih
    exact ⟨d, _, rfl, hd⟩

lemma NumberText.reads_negative {cs : List Char} (h : NumberText cs) :
    Reads ('-' :: cs) [.mark '-', .number cs] := by
  intro rest hrest
  obtain ⟨d, ds, rfl, hd⟩ := h.head
  have hsign : d ≠ '-' := by
    rintro rfl
    exact absurd hd (by decide)
  have hpending : ∀ c ∈ (d :: ds ++ rest).head?, (Reading.pending '-').next c =
      (Reading.pending '-').settle c := by
    intro c hc
    obtain rfl := Option.some.inj hc
    simp [Reading.next, Reading.pair?, hsign]
  have hminus : tokensFrom .ready ('-' :: (d :: ds) ++ rest) =
      .mark '-' :: tokensFrom .ready (d :: ds ++ rest) := tokensFrom_settle hpending
  rw [hminus, h.reads rest hrest]
  rfl

end Tablewright
