import Tablewright.Proofs.Catalog.Fallback
import Tablewright.Proofs.Schema.Keyed

namespace Tablewright

def Scan.Unquoted : Scan → Prop
  | .reading .ready | .reading (.word _) | .reading (.number _ _) | .hex _ => True
  | _ => False

namespace Scan

variable {s : Scan} {c : Char} {cs : List Char}

def isBare (c : Char) : Bool := c.isAlphanum || c = '_' || c = '$'

lemma bare_cases (hc : isBare c = true) :
    c.isDigit = true ∨ Reading.startsWord c = true ∨ c = '$' := by
  simp only [isBare, Char.isAlphanum, Bool.or_eq_true, decide_eq_true_eq] at hc
  simp only [Reading.startsWord, Bool.or_eq_true, beq_iff_eq]
  tauto

lemma start_bare (hc : isBare c = true) :
    start c = ((Reading.start c).1, reading (Reading.start c).2) ∧
      (reading (Reading.start c).2).Unquoted := by
  have hne : c ∉ ['.', '[', '`', '/', '+', '%', '&', '|', '~'] := by
    intro hmem
    have hall : ['.', '[', '`', '/', '+', '%', '&', '|', '~'].all (!isBare ·) = true := by decide
    have hnot := List.all_eq_true.mp hall c hmem
    rw [hc] at hnot
    cases hnot
  simp only [List.mem_cons, List.not_mem_nil, or_false, not_or] at hne
  refine ⟨by simp [start, hne], ?_⟩
  rcases bare_cases hc with hdigit | hword | rfl
  · simp [Reading.start, hdigit, Unquoted]
  · cases hdigit : c.isDigit <;> simp [Reading.start, hdigit, hword, Unquoted]
  · exact trivial

lemma unquoted_reading {m : Reading} (h : (reading m).Unquoted) (hc : isBare c = true) :
    (reading (m.next c).2).Unquoted := by
  obtain ⟨-, hstart⟩ := start_bare hc
  cases m with
  | ready => exact hstart
  | word read =>
    rw [Reading.next]
    split_ifs with _ hquote
    · exact trivial
    · exact absurd (hquote.1 ▸ hc) (by decide)
    · exact hstart
  | number part read =>
    rw [Reading.next]
    split
    · exact trivial
    · split_ifs
      · exact trivial
      · exact hstart
  | _ => exact h.elim

lemma unquoted_next (h : s.Unquoted) (hc : isBare c = true) : (s.next c).2.Unquoted := by
  have hstart : (start c).2.Unquoted := by
    obtain ⟨heq, hstart⟩ := start_bare hc
    rwa [heq]
  cases s with
  | reading m =>
    rw [next]
    split_ifs with hdash
    · exact absurd (hdash.2 ▸ hc) (by decide)
    · exact trivial
    · exact hstart
    · exact unquoted_reading h hc
  | hex read =>
    rw [next]
    split_ifs
    · exact trivial
    · exact trivial
    · exact hstart
  | _ => exact h.elim

lemma unquoted_run (h : s.Unquoted) (hcs : cs.all isBare = true) : (s.run cs).2.Unquoted := by
  induction cs generalizing s with
  | nil => exact h
  | cons c cs ih =>
    rw [List.all_cons, Bool.and_eq_true] at hcs
    exact ih (unquoted_next h hcs.1) hcs.2

lemma Unquoted.next_opening (h : s.Unquoted) : s.next '(' = s.settle '(' := by
  cases s with
  | reading m =>
    refine next_reading_settle (by decide) ?_
    cases m with
    | ready => rfl
    | word read => simp [Reading.next, Reading.continuesWord, Reading.startsWord]
    | number part read => cases part <;> rfl
    | _ => exact h.elim
  | hex read => rfl
  | _ => exact h.elim

def Leads : Scan → Prop
  | reading (.word _) | reading (.number _ _) | reading (.blob _) | hex _ => True
  | _ => False

def Led (ts : List Token) : Prop := ∃ t us, ts = t :: us ∧ ∀ c, t ≠ .mark c

lemma Led.append {ts : List Token} (h : Led ts) (us : List Token) : Led (ts ++ us) := by
  obtain ⟨t, ts, rfl, hmark⟩ := h
  exact ⟨t, ts ++ us, rfl, hmark⟩

lemma led_bad : Led [.bad] := ⟨_, _, rfl, nofun⟩

lemma Leads.led_finish (h : s.Leads) : Led s.finish := by
  cases s with
  | reading m =>
    cases m with
    | word read => exact ⟨_, _, rfl, nofun⟩
    | number part read =>
      refine ⟨_, _, rfl, ?_⟩
      split_ifs <;> exact nofun
    | blob read => exact led_bad
    | _ => exact h.elim
  | hex read =>
    refine ⟨_, _, rfl, ?_⟩
    split_ifs <;> exact nofun
  | _ => exact h.elim

lemma leads_next {m : Reading} (h : (reading m).Leads) (c : Char) :
    (m.next c).1 = [] ∧ (reading (m.next c).2).Leads ∨ Led (m.next c).1 := by
  cases m with
  | word read =>
    rw [Reading.next]
    split_ifs
    · exact Or.inl ⟨rfl, trivial⟩
    · exact Or.inl ⟨rfl, trivial⟩
    · exact Or.inr (h.led_finish.append _)
  | number part read =>
    rw [Reading.next]
    split
    · exact Or.inl ⟨rfl, trivial⟩
    · split_ifs
      · exact Or.inr led_bad
      · exact Or.inr (h.led_finish.append _)
  | blob read =>
    rw [Reading.next]
    split_ifs
    · exact Or.inr ⟨_, _, rfl, fun _ => Token.noConfusion⟩
    · exact Or.inr led_bad
    · exact Or.inl ⟨rfl, trivial⟩
  | _ => exact h.elim

lemma Leads.next (h : s.Leads) (c : Char) :
    (s.next c).1 = [] ∧ (s.next c).2.Leads ∨ Led (s.next c).1 := by
  have hsettle : Led (s.settle c).1 := h.led_finish.append _
  cases s with
  | reading m =>
    rw [Scan.next]
    split_ifs with hdash
    · obtain rfl := hdash.1
      exact h.elim
    · exact Or.inl ⟨rfl, trivial⟩
    · exact Or.inr hsettle
    · exact leads_next h c
  | hex read =>
    rw [Scan.next]
    split_ifs
    · exact Or.inl ⟨rfl, trivial⟩
    · exact Or.inr led_bad
    · exact Or.inr hsettle
  | _ => exact h.elim

lemma Leads.led_scanFrom {s : Scan} (h : s.Leads) (cs : List Char) : Led (scanFrom s cs) := by
  induction cs generalizing s with
  | nil => exact h.led_finish
  | cons c cs ih =>
    rw [scanFrom_cons]
    obtain ⟨hnone, hnext⟩ | hled := h.next c
    · rw [hnone]
      exact ih hnext
    · exact hled.append _

lemma led_bare (hc : isBare c = true) (cs : List Char) :
    Led (scanFrom (.reading .ready) (c :: cs)) := by
  have hnumber : (reading (.number .whole [c])).Leads := trivial
  have hname : (reading (.word [c])).Leads := trivial
  rw [scanFrom_cons, next_ready, (start_bare hc).1, Reading.start]
  by_cases hdigit : c.isDigit = true
  · rw [if_pos hdigit]
    exact hnumber.led_scanFrom cs
  · rw [if_neg hdigit]
    obtain hword | rfl := (bare_cases hc).resolve_left hdigit
    · rw [if_pos hword]
      exact hname.led_scanFrom cs
    · exact led_bad.append _

end Scan

lemma isFallback_of_led {ts us : List Token} (h : Scan.Led ts) :
    isFallback (ts ++ .mark '(' :: us) = false := by
  obtain ⟨t, ts, rfl, hmark⟩ := h
  rw [List.cons_append]
  cases t with
  | mark c => exact absurd rfl (hmark c)
  | _ => cases ts <;> rfl

example : isAccepted "random()" = false ∧ isAccepted "(random())" = true := by decide

lemma run_doubled (quote : Char) (n read : List Char) :
    Reading.run (.quoted quote read) (Text.doubleChars quote n ++ [quote]) =
      ([], .closing quote (n.reverse ++ read)) := by
  induction n generalizing read with
  | nil => simp [Text.doubleChars, Reading.run, Reading.next]
  | cons c n ih =>
    by_cases hc : c = quote
    · simp [Text.doubleChars, hc, Reading.run, Reading.next, ih]
    · simp [Text.doubleChars, hc, Reading.run, Reading.next, ih]

lemma run_enclosed (name : String) :
    (Scan.reading .ready).run (Text.enclose '"' name).toList =
      ([], .reading (.closing '"' name.toList.reverse)) := by
  have hrun : Reading.ready.run (Text.enclose '"' name).toList =
      ([], .closing '"' name.toList.reverse) := by
    have hstart : Reading.ready.next '"' = ([], .quoted '"' []) := rfl
    rw [Text.enclose, String.toList_ofList, List.cons_append, Reading.run, hstart, run_doubled]
    simp
  rw [Scan.run_reading (by simp [hrun]), hrun]

namespace ServerDefault

lemma functionName_next (name : String) {s : Scan} {ts : List Token}
    (h : (Scan.reading .ready).run (functionName name).toList = (ts, s)) :
    s.next '(' = s.settle '(' := by
  rw [functionName] at h
  split_ifs at h with hbare
  · have hunquoted := Scan.unquoted_run (s := .reading .ready) trivial hbare
    rw [h] at hunquoted
    exact hunquoted.next_opening
  · rw [run_enclosed] at h
    obtain rfl : Scan.reading (.closing '"' name.toList.reverse) = s := congrArg Prod.snd h
    exact Scan.next_reading_settle (by decide) (by simp [Reading.next])

lemma led_functionName {name : String} (hne : name ≠ "") : Scan.Led (scan (functionName name)) := by
  rw [scan, functionName]
  split_ifs with hbare
  · cases hcs : name.toList with
    | nil => exact absurd (String.toList_eq_nil_iff.mp hcs) hne
    | cons c cs =>
      rw [hcs, List.all_cons, Bool.and_eq_true] at hbare
      exact Scan.led_bare hbare.1 cs
  · rw [scanFrom, run_enclosed]
    exact ⟨_, _, rfl, fun _ => Token.noConfusion⟩

lemma run_opening (name : String) : (Scan.reading .ready).run (functionName name ++ "(").toList =
    (scan (functionName name) ++ [.mark '('], .reading .ready) := by
  have hopening := functionName_next name (Prod.mk.eta (p := (Scan.reading .ready).run _)).symm
  have hstart : Scan.start '(' = ([.mark '('], .reading .ready) := by decide
  have hlast : "(".toList = ['('] := rfl
  rw [String.toList_append, Scan.run_append, hlast, Scan.run, hopening, Scan.settle, hstart,
    Scan.run, scan, scanFrom, List.append_nil, List.append_assoc]

lemma scan_called (name rest : String) : scan (functionName name ++ "(" ++ rest) =
    scan (functionName name) ++ .mark '(' :: scan rest := by
  rw [scan, String.toList_append, Scan.scanFrom_append, run_opening, List.append_assoc]
  rfl

lemma settles_called (name rest : String) :
    settles (functionName name ++ "(" ++ rest) = settles rest := by
  rw [settles, String.toList_append, Scan.run_append, run_opening, settles]

lemma isFallback_called {name : String} (hne : name ≠ "") (rest : String) :
    isFallback (scan (functionName name ++ "(" ++ rest)) = false := by
  rw [scan_called]
  exact isFallback_of_led (led_functionName hne)

def clocks : List ServerDefault :=
  [call "CURRENT_DATE", call "CURRENT_TIME", call "CURRENT_TIMESTAMP"]

lemma isAccepted_of_mem_clocks {s : String} (h : call s ∈ clocks) : isAccepted s = true := by
  simp only [clocks, List.mem_cons, call.injEq, List.not_mem_nil, or_false] at h
  rcases h with rfl | rfl | rfl <;> decide

lemma isFallback_knownCalls : ∀ e ∈ knownCalls,
    settles e.2 = true ∧ (isFallback (scan e.2) = true ↔ call e.2 ∈ clocks) := by
  decide +kernel

lemma ofFunction_eq_ok {given : String} {d : ServerDefault} (h : ofFunction given = .ok d) :
    ∃ s, d = call s ∧ ((∃ e ∈ knownCalls, s = e.2) ∨
      ∃ name, name ≠ "" ∧ s = functionName name ++ "(" ++ ")") := by
  simp only [ofFunction] at h
  generalize (if given.endsWith "_" = true then _ else given) = name at h
  split at h
  · next written hlookup =>
    obtain rfl := Except.ok.inj h
    exact ⟨written, rfl, Or.inl ⟨_, Keyed.mem_of_get? hlookup, rfl⟩⟩
  · cases h
  · split_ifs at h with hempty
    obtain rfl := Except.ok.inj h
    refine ⟨_, rfl, Or.inr ⟨name, fun hnone => hempty (String.isEmpty_iff.mpr hnone), ?_⟩⟩
    rw [String.append_assoc]
    rfl

lemma isFallback_ofFunction {given : String} {d : ServerDefault} (h : ofFunction given = .ok d) :
    ∃ s, d = call s ∧ settles s = true ∧ (isFallback (scan s) = true ↔ d ∈ clocks) := by
  obtain ⟨s, rfl, ⟨e, he, rfl⟩ | ⟨name, hne, rfl⟩⟩ := ofFunction_eq_ok h
  · exact ⟨_, rfl, isFallback_knownCalls e he⟩
  · refine ⟨_, rfl, ?_, fun hform => ?_, fun hclock => ?_⟩
    · rw [settles_called]
      decide
    · rw [isFallback_called hne] at hform
      cases hform
    · exact (isAccepted_iff.mp (isAccepted_of_mem_clocks hclock)).2

end ServerDefault

end Tablewright
