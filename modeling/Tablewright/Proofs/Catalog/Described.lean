import Tablewright.Catalog.Definition
import Tablewright.Proofs.Catalog.Call

namespace Tablewright

open ServerDefault (call functionName plainColons ofFunction clocks)

/-- A default that has an accepted form of its own: none at all, a text, SQL of such a form, or a
call without parentheses. -/
def ServerDefault.Accepted : ServerDefault → Prop
  | absent | text _ => True
  | sql s => isAccepted s = true ∨ isAccepted (String.ofList (plainColons s.toList)) = true
  | call s => call s ∈ clocks

lemma stands_text (s : String) : Stands (Text.enclose '\'' s).toList [.text s.toList] := by
  rw [Text.enclose, String.toList_ofList]
  exact Scan.stands_of_plain (reads_text s.toList).tokensFrom_eq (by simp [Token.isPlain])

lemma scan_text (s : String) : scan (Text.enclose '\'' s) = [.text s.toList] :=
  (stands_text s).scanFrom_eq

lemma stands_of_accepted {d : ServerDefault} {sql : String} (h : d.Accepted)
    (hsql : d.clause = some sql) : Stands sql.toList (scan sql) ∧ isFallback (scan sql) = true := by
  have hstands {sql : String} (h : isAccepted sql = true) :
      Stands sql.toList (scan sql) ∧ isFallback (scan sql) = true := by
    obtain ⟨hsettles, hform⟩ := isAccepted_iff.mp h
    exact ⟨stands_of_settles hsettles, hform⟩
  cases d with
  | absent => cases hsql
  | text s =>
    obtain rfl := Option.some.inj hsql
    rw [scan_text]
    exact ⟨stands_text s, rfl⟩
  | sql s =>
    obtain rfl := Option.some.inj hsql
    exact hstands (h.elim isAccepted_plainColons id)
  | call s =>
    obtain rfl := Option.some.inj hsql
    exact hstands (ServerDefault.isAccepted_of_mem_clocks h)

namespace Column

variable {c : Column} {d : ServerDefault}

lemma defaults_text {s : String} (h : c.fallback = (ServerDefault.text s).clause) :
    c.Defaults [.text s.toList] := by
  obtain ⟨hstands, -⟩ := stands_of_accepted (d := .text s) trivial rfl
  exact (defaults_iff h hstands).mpr (scan_text s).symm

lemma hasDefault_of_accepted (h : c.fallback = d.clause) (hd : d ≠ .absent) (hform : d.Accepted) :
    c.HasDefault := by
  obtain ⟨sql, hsql⟩ : ∃ sql, d.clause = some sql := by
    cases d with
    | absent => exact absurd rfl hd
    | text s | sql s | call s => exact ⟨_, rfl⟩
  obtain ⟨hstands, hsqlform⟩ := stands_of_accepted hform hsql
  exact ⟨scan sql, hsqlform, (defaults_iff (h.trans hsql) hstands).mpr rfl⟩

lemma not_hasDefault_of_called {name rest : String} (hne : name ≠ "")
    (hsettles : settles rest = true)
    (h : c.fallback = (call (functionName name ++ "(" ++ rest)).clause) : ¬ c.HasDefault := by
  rintro ⟨form, hform, hc⟩
  rw [← ServerDefault.settles_called name] at hsettles
  obtain rfl := (defaults_iff h (stands_of_settles hsettles)).mp hc
  rw [ServerDefault.isFallback_called hne] at hform
  cases hform

lemma hasDefault_iff_of_ofFunction {name : String} (h : c.fallback = d.clause)
    (hd : ofFunction name = .ok d) : c.HasDefault ↔ d ∈ clocks := by
  obtain ⟨s, rfl, hsettles, hclocks⟩ := ServerDefault.isFallback_ofFunction hd
  have hread {form : List Token} : c.Defaults form ↔ form = scan s :=
    defaults_iff h (stands_of_settles hsettles)
  rw [← hclocks]
  exact ⟨fun ⟨form, hform, hc⟩ => hread.mp hc ▸ hform, fun hform => ⟨_, hform, hread.mpr rfl⟩⟩

end Column

lemma forall₂_of_mapM {ε α β : Type} {f : α → Except ε β} {xs : List α} {ys : List β}
    (h : xs.mapM f = .ok ys) : List.Forall₂ (fun x y => f x = .ok y) xs ys := by
  induction xs generalizing ys with
  | nil =>
    obtain rfl := Except.ok.inj h
    exact .nil
  | cons x xs ih =>
    rw [List.mapM_cons] at h
    obtain ⟨y, hy, h⟩ := seq_eq_ok_iff.mp h
    obtain ⟨ys, hys, h⟩ := seq_eq_ok_iff.mp h
    obtain rfl := pure_eq_ok_iff.mp h
    exact .cons hy (ih hys)

lemma exists_mem_of_forall₂ {α β : Type} {R : α → β → Prop} {xs : List α} {ys : List β} {y : β}
    (h : List.Forall₂ R xs ys) (hy : y ∈ ys) : ∃ x ∈ xs, R x y := by
  induction h with
  | nil => cases hy
  | @cons x y' xs ys hxy _ ih =>
    rcases List.mem_cons.mp hy with rfl | hy
    · exact ⟨x, List.mem_cons_self, hxy⟩
    · obtain ⟨x, hx, hxy⟩ := ih hy
      exact ⟨x, List.mem_cons_of_mem _ hx, hxy⟩

namespace DefinedTable

variable {t : DefinedTable} {table : Table} {indexes : List Index}

lemma fallback_of_describeColumn {c : DefinedColumn} {d : Column}
    (h : t.describeColumn c = .ok d) : d.fallback = c.serverDefault.clause := by
  rw [describeColumn] at h
  split at h
  · exact Except.ok.inj h ▸ rfl
  · exact Except.ok.inj h ▸ rfl
  · cases h

lemma fallback_of_describe (h : t.describe = .ok (table, indexes)) :
    List.Forall₂ (fun c d => d.fallback = c.serverDefault.clause) t.columns table.columns := by
  obtain ⟨columns, hcolumns, h⟩ := seq_eq_ok_iff.mp h
  obtain rfl : _ = table := congrArg Prod.fst (pure_eq_ok_iff.mp h)
  exact (forall₂_of_mapM hcolumns).imp fun _ _ => fallback_of_describeColumn

end DefinedTable

/-- A text given as the default of a column is read back from the definition of the column as one
text, SQL of an accepted form has an accepted form there, and a function gives a default of such a
form exactly if its call is one of those without parentheses; no call with arguments is one. Where
every default has an accepted form, the definition of the table is read as its name and its columns
with defaults of such forms. -/
theorem described_defaults {t : DefinedTable} {table : Table} {indexes : List Index}
    (h : t.describe = .ok (table, indexes)) :
    List.Forall₂ (fun c d =>
        (∀ s, c.serverDefault = .text s → d.Defaults [.text s.toList]) ∧
        (c.serverDefault ≠ .absent → c.serverDefault.Accepted → d.HasDefault) ∧
        (∀ name, ofFunction name = .ok c.serverDefault →
          (d.HasDefault ↔ c.serverDefault ∈ clocks)) ∧
        ∀ name rest, name ≠ "" → settles rest = true →
          c.serverDefault = .call (functionName name ++ "(" ++ rest) →
          ¬ d.HasDefault)
      t.columns table.columns ∧
    ((∀ c ∈ t.columns, c.serverDefault.Accepted) →
      ∃ q, (Statement.ddl (.createTable table)).compile = .ok q ∧ scan q.sql = table.creation ∧
        ∀ d ∈ table.columns, ∀ sql, d.fallback = some sql → isFallback (scan sql) = true) := by
  have hcolumns := DefinedTable.fallback_of_describe h
  refine ⟨?_, fun haccepted => ?_⟩
  · refine hcolumns.imp fun c d hfallback => ⟨fun s hs => ?_, ?_, fun name => ?_, ?_⟩
    · exact Column.defaults_text (hs ▸ hfallback)
    · exact Column.hasDefault_of_accepted hfallback
    · exact Column.hasDefault_iff_of_ofFunction hfallback
    · intro name rest hne hsettles hcall
      exact Column.not_hasDefault_of_called hne hsettles (hcall ▸ hfallback)
  · have hforms : ∀ d ∈ table.columns, ∀ sql, d.fallback = some sql →
        Stands sql.toList (scan sql) ∧ isFallback (scan sql) = true := by
      intro d hd sql hsql
      obtain ⟨c, hc, hfallback⟩ := exists_mem_of_forall₂ hcolumns hd
      exact stands_of_accepted (haccepted c hc) (hfallback.symm.trans hsql)
    have hscan : scan (Ddl.createTable table).sql.text = table.creation :=
      Table.scan_eq_creation fun d hd sql hsql => (hforms d hd sql hsql).1
    exact ⟨_, rfl, hscan, fun d hd sql hsql => (hforms d hd sql hsql).2⟩

namespace DefinedTable

def note : DefinedTable where
  name := "note"
  columns := [
    { name := "id", type := .integer, primaryKey := true },
    { name := "body", nullable := false, serverDefault := .text "it's" },
    { name := "score", type := .integer, serverDefault := .sql "-1" },
    { name := "at", type := .dateTime, serverDefault := .call "CURRENT_TIMESTAMP" }]

def lottery : DefinedTable where
  name := "lottery"
  columns := [{ name := "lot", type := .integer, serverDefault := .call "random()" }]

end DefinedTable

theorem described_defaults_note : ∃ table indexes,
    DefinedTable.note.describe = .ok (table, indexes) ∧
      ∃ q, (Statement.ddl (.createTable table)).compile = .ok q ∧ scan q.sql = table.creation := by
  obtain ⟨table, indexes, h⟩ : ∃ table indexes,
    DefinedTable.note.describe = .ok (table, indexes) := ⟨_, _, rfl⟩
  have haccepted : ∀ c ∈ DefinedTable.note.columns, c.serverDefault.Accepted := by
    simp only [DefinedTable.note, List.forall_mem_cons]
    exact ⟨trivial, trivial, Or.inl (by decide), List.mem_cons_of_mem _ (by decide),
      List.forall_mem_nil _⟩
  obtain ⟨-, hcreation⟩ := described_defaults h
  obtain ⟨q, hq, hscan, -⟩ := hcreation haccepted
  exact ⟨table, indexes, h, q, hq, hscan⟩

/-- What stands after `DEFAULT` is a call, which would have to be in parentheses. -/
theorem describe_lottery :
    (∀ c ∈ DefinedTable.lottery.columns, ofFunction "random" = .ok c.serverDefault) ∧
      ∃ table indexes, DefinedTable.lottery.describe = .ok (table, indexes) ∧
        (Ddl.createTable table).sql.text =
          "CREATE TABLE \"lottery\" (\"lot\" INTEGER DEFAULT random())" ∧
        ∀ d ∈ table.columns, ¬ d.HasDefault := by
  have hname : ofFunction "random" = .ok (.call "random()") := by decide +kernel
  refine ⟨List.forall_mem_singleton.mpr hname, _, _, rfl, by decide +kernel, ?_⟩
  refine List.forall_mem_singleton.mpr fun hdefault => ?_
  have hclock := (Column.hasDefault_iff_of_ofFunction rfl hname).mp hdefault
  exact absurd hclock (by decide)

end Tablewright
