import Mathlib.Data.List.Perm.Basic
import Tablewright.Proofs.Schema.Keyed
import Tablewright.Schema.Order

/-! The order of tables by their references. It is made in rounds, each of which places the first
table that waits for no other; it loses no table and puts each one after the others it refers to. -/

namespace Tablewright

lemma takeFirst?_eq_some {α : Type} {ready : α → Bool} {items rest : List α} {a : α}
    (h : takeFirst? ready items = some (a, rest)) :
    ∃ before after, items = before ++ a :: after ∧ rest = before ++ after ∧ ready a = true ∧
      ∀ b ∈ before, ready b = false := by
  induction items generalizing rest with
  | nil => simp [takeFirst?] at h
  | cons b items ih =>
    by_cases hb : ready b = true
    · simp only [takeFirst?, if_pos hb, Option.some.injEq, Prod.mk.injEq] at h
      obtain ⟨rfl, rfl⟩ := h
      exact ⟨[], items, rfl, rfl, hb, by simp⟩
    · simp only [takeFirst?, if_neg hb, Option.map_eq_some_iff, Prod.mk.injEq] at h
      obtain ⟨⟨c, others⟩, hc, rfl, rfl⟩ := h
      obtain ⟨before, after, rfl, rfl, hready, hbefore⟩ := ih hc
      refine ⟨b :: before, after, rfl, rfl, hready, ?_⟩
      intro d hd
      rcases List.mem_cons.mp hd with rfl | hd
      · simpa using hb
      · exact hbefore d hd

lemma takeFirst?_eq_none {α : Type} {ready : α → Bool} {items : List α}
    (h : takeFirst? ready items = none) : ∀ a ∈ items, ready a = false := by
  induction items with
  | nil => simp
  | cons b items ih =>
    by_cases hb : ready b = true
    · simp [takeFirst?, hb] at h
    · simp only [takeFirst?, if_neg hb, Option.map_eq_none_iff] at h
      exact List.forall_mem_cons.mpr ⟨by simpa using hb, ih h⟩

namespace Table

def RefersTo (t u : Table) : Prop :=
  Text.fold u.name ≠ Text.fold t.name ∧ ∃ name ∈ t.referenced, Text.fold name = Text.fold u.name

def Waits (pending : List Table) (t : Table) : Prop := ∃ u ∈ pending, t.RefersTo u

lemma not_refersTo_self (t : Table) : ¬ t.RefersTo t := fun h => h.1 rfl

end Table

def FoldedKeys (pending : Keyed Table) : Prop := ∀ e ∈ pending, e.1 = Text.fold e.2.name

lemma waitsFor_iff {pending : Keyed Table} (hkey : FoldedKeys pending) {e : String × Table}
    (he : e ∈ pending) : waitsFor pending e = true ↔ e.2.Waits pending.values := by
  simp only [waitsFor, List.any_eq_true, Bool.and_eq_true, bne_iff_ne, beq_iff_eq]
  constructor
  · rintro ⟨name, hname, hne, d, hd, hsame⟩
    have hfold := hkey d hd
    refine ⟨d.2, List.mem_map_of_mem hd, ?_, name, hname, hsame.symm.trans hfold⟩
    rwa [← hfold, hsame, ← hkey e he]
  · rintro ⟨u, hu, hne, name, hname, hsame⟩
    obtain ⟨d, hd, rfl⟩ := List.mem_map.mp hu
    refine ⟨name, hname, ?_, d, hd, (hkey d hd).trans hsame.symm⟩
    rwa [hsame, hkey e he]

/-- `Rounds pending ordered left`: placing one table a round, always the first that waits for none
that is pending, places the tables `ordered` and ends with `left`, where all wait or none is. -/
inductive Rounds : List Table → List Table → List Table → Prop
  | ended {pending : List Table} (hwait : ∀ t ∈ pending, t.Waits pending) :
      Rounds pending [] pending
  | place {before after ordered left : List Table} {t : Table}
      (hbefore : ∀ u ∈ before, u.Waits (before ++ t :: after))
      (hready : ¬ t.Waits (before ++ t :: after))
      (hrest : Rounds (before ++ after) ordered left) :
      Rounds (before ++ t :: after) (t :: ordered) left

lemma rounds_placeReady {rounds : Nat} {pending : Keyed Table} (hkey : FoldedKeys pending)
    (hlength : pending.length ≤ rounds) :
    Rounds pending.values (placeReady rounds pending).1 (placeReady rounds pending).2.values := by
  -- each round places a table or is the last, so as many rounds as tables are enough
  induction rounds generalizing pending with
  | zero =>
    obtain rfl : pending = [] := List.length_eq_zero_iff.mp (Nat.le_zero.mp hlength)
    exact .ended (by simp [Keyed.values])
  | succ rounds ih =>
    cases hf : takeFirst? (fun e => !waitsFor pending e) pending with
    | none =>
      simp only [placeReady, hf]
      refine .ended fun t ht => ?_
      obtain ⟨e, he, rfl⟩ := List.mem_map.mp ht
      exact (waitsFor_iff hkey he).mp (by simpa using takeFirst?_eq_none hf e he)
    | some p =>
      obtain ⟨entry, rest⟩ := p
      obtain ⟨before, after, rfl, rfl, hready, hbefore⟩ := takeFirst?_eq_some hf
      have hvalues : Keyed.values (before ++ entry :: after) =
          before.map (·.2) ++ entry.2 :: after.map (·.2) := by simp [Keyed.values]
      have hsublist : (before ++ after).Sublist (before ++ entry :: after) :=
        (List.sublist_cons_self entry after).append_left before
      have hrest := ih (fun e he => hkey e (hsublist.subset he))
        (by simp only [List.length_append, List.length_cons] at hlength ⊢; omega)
      have hwaits := fun e he => (waitsFor_iff hkey (e := e) he).symm
      simp only [placeReady, hf]
      rw [hvalues] at hwaits ⊢
      rw [Keyed.values, List.map_append] at hrest
      refine .place (fun u hu => ?_) ?_ hrest
      · obtain ⟨e, he, rfl⟩ := List.mem_map.mp hu
        exact (hwaits e (List.mem_append_left _ he)).mpr (by simpa using hbefore e he)
      · rw [hwaits entry (by simp)]
        simpa using hready

namespace Rounds

variable {pending ordered left : List Table}

lemma perm (h : Rounds pending ordered left) : (ordered ++ left).Perm pending := by
  induction h with
  | ended _ => exact .refl _
  | place _ _ _ ih => exact (ih.cons _).trans List.perm_middle.symm

end Rounds

def Respects (tables order : List Table) : Prop :=
  ∀ before t after, order = before ++ t :: after → ∀ u ∈ tables, t.RefersTo u → u ∈ before

lemma Rounds.respects {pending ordered left : List Table} (h : Rounds pending ordered left) :
    Respects pending ordered := by
  induction h with
  | ended _ => simp [Respects]
  | @place before after ordered left t _ hready _ ih =>
    intro front s back heq u hu hrefers
    rcases List.cons_eq_append_iff.mp heq with ⟨rfl, hs⟩ | ⟨front, rfl, hs⟩
    · obtain ⟨rfl, -⟩ := List.cons.inj hs
      exact absurd ⟨u, hu, hrefers⟩ hready
    · rw [List.mem_append, List.mem_cons, or_left_comm, ← List.mem_append] at hu
      rcases hu with rfl | hu
      · exact List.mem_cons_self
      · exact List.mem_cons_of_mem _ (ih front s back hs u hu hrefers)

/-- Each table refers only to itself, to what is available and to the tables before it. -/
def Follows (available : String → Prop) : List Table → Prop
  | [] => True
  | t :: rest =>
    (∀ name ∈ t.referenced, Text.fold name = Text.fold t.name ∨ available (Text.fold name)) ∧
      Follows (fun n => available n ∨ n = Text.fold t.name) rest

lemma follows_of_forall {available : String → Prop} {order : List Table}
    (h : ∀ before t after, order = before ++ t :: after → ∀ name ∈ t.referenced,
      Text.fold name = Text.fold t.name ∨ available (Text.fold name) ∨
        ∃ u ∈ before, Text.fold name = Text.fold u.name) :
    Follows available order := by
  induction order generalizing available with
  | nil => trivial
  | cons t rest ih =>
    refine ⟨fun name hname => by simpa using h [] t rest rfl name hname, ih ?_⟩
    rintro before s after rfl name hname
    have hs := h (t :: before) s after rfl name hname
    rw [List.exists_mem_cons_iff] at hs
    simpa only [or_assoc] using hs

lemma Respects.follows {tables order : List Table} (h : Respects tables order) :
    Follows (· ∉ tables.map fun t => Text.fold t.name) order := by
  refine follows_of_forall fun before t after heq name hname => or_iff_not_imp_left.mpr fun hne => ?_
  by_cases hmem : Text.fold name ∈ tables.map fun t => Text.fold t.name
  · obtain ⟨u, hu, hsame⟩ := List.mem_map.mp hmem
    have hrefers : t.RefersTo u := ⟨fun he => hne (hsame.symm.trans he), name, hname, hsame.symm⟩
    exact Or.inr ⟨u, h before t after heq u hu hrefers, hsame.symm⟩
  · exact Or.inl hmem

def DistinctNames (tables : List Table) : Prop := (tables.map fun t => Text.fold t.name).Nodup

lemma DistinctNames.perm {tables others : List Table} (h : DistinctNames tables)
    (hp : others.Perm tables) : DistinctNames others :=
  (hp.map _).nodup_iff.mpr h

lemma DistinctNames.find?_under {key : String → String}
    (hkey : ∀ n m, key n = key m → Text.fold n = Text.fold m) {tables : List Table}
    (h : DistinctNames tables) {t : Table} (ht : t ∈ tables) :
    tables.find? (fun u => key u.name == key t.name) = some t := by
  induction tables with
  | nil => simp at ht
  | cons u rest ih =>
    obtain ⟨hne, hrest⟩ := List.nodup_cons.mp h
    rcases List.mem_cons.mp ht with rfl | ht
    · simp
    · have hdiff : key u.name ≠ key t.name := fun he =>
        hne (List.mem_map.mpr ⟨t, ht, (hkey _ _ he).symm⟩)
      rw [List.find?_cons_of_neg (by simpa using hdiff), ih hrest ht]

lemma DistinctNames.find? {tables : List Table} (h : DistinctNames tables) {t : Table}
    (ht : t ∈ tables) :
    tables.find? (fun u => Text.fold u.name == Text.fold t.name) = some t :=
  h.find?_under (fun _ _ => id) ht

lemma byFoldedName_values {tables : List Table} (h : DistinctNames tables) :
    (byFoldedName tables).values = tables :=
  Keyed.values_ofList _ _ h

lemma rounds_orderByReferences (tables : List Table) :
    ∃ left, Rounds (byFoldedName tables).values (orderByReferences tables).ordered left ∧
      (orderByReferences tables).leftOver = left.map (·.name) := by
  refine ⟨_, rounds_placeReady (Keyed.key_of_mem_ofList _ _) (Nat.le_refl _), ?_⟩
  rw [Keyed.values, List.map_map]
  rfl

lemma orderByReferences_perm {tables : List Table} (h : DistinctNames tables)
    (hl : (orderByReferences tables).leftOver = []) :
    (orderByReferences tables).ordered.Perm tables := by
  obtain ⟨left, hrounds, hleft⟩ := rounds_orderByReferences tables
  obtain rfl : left = [] := List.map_eq_nil_iff.mp (hleft.symm.trans hl)
  simpa [byFoldedName_values h] using hrounds.perm

lemma orderByReferences_follows {tables : List Table} (h : DistinctNames tables) :
    Follows (· ∉ tables.map fun t => Text.fold t.name) (orderByReferences tables).ordered := by
  obtain ⟨left, hrounds, -⟩ := rounds_orderByReferences tables
  rw [byFoldedName_values h] at hrounds
  exact hrounds.respects.follows

end Tablewright
