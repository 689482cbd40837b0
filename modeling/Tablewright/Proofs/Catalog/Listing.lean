import Mathlib.Data.List.Sort
import Mathlib.Tactic.Lemma
import Tablewright.Catalog.Definition
import Tablewright.Migration.Plan
import Tablewright.Proofs.Catalog.Reported

namespace Tablewright

/-- A table definition as it is gone through: its sets are in the order in which they come. -/
structure Listing where
  name : String
  columns : List DefinedColumn
  uniques : List (List String)
  indexes : List DefinedIndex
deriving Repr

def DefinedTable.listing (t : DefinedTable) : Listing := ⟨t.name, t.columns, t.uniques, t.indexes⟩

namespace Listing

def definition (l : Listing) : DefinedTable := ⟨l.name, l.columns, l.uniques, []⟩

def describe (l : Listing) : Except SchemaError (Table × List Index) := do
  let columns ← l.columns.mapM l.definition.describeColumn
  let sorted := l.indexes.mergeSort fun a b => a.name ≤ b.name
  return (⟨l.name, columns⟩, sorted.map fun i => ⟨i.name, l.name, i.columns, i.unique⟩)

end Listing

def Schema.ofListings (listings : List Listing) : Except SchemaError Schema := do
  let described ← listings.mapM (·.describe)
  build (described.map (·.1)) (described.flatMap (·.2))

def DefinedColumn.Lists (c listed : DefinedColumn) : Prop :=
  ∃ targets : List String, targets.Perm c.targets ∧ listed = { c with targets }

structure DefinedTable.Lists (t : DefinedTable) (l : Listing) : Prop where
  name : l.name = t.name
  columns : List.Forall₂ DefinedColumn.Lists t.columns l.columns
  uniques : l.uniques.Perm t.uniques
  indexes : l.indexes.Perm t.indexes

lemma DefinedTable.lists_listing (t : DefinedTable) : t.Lists t.listing where
  name := rfl
  columns := List.forall₂_same.mpr fun c _ => ⟨c.targets, .refl _, rfl⟩
  uniques := .refl _
  indexes := .refl _

lemma mapM_eq_of_forall₂ {ε α β γ : Type} {R : α → β → Prop} {f : α → Except ε γ}
    {g : β → Except ε γ} {xs : List α} {ys : List β} (h : List.Forall₂ R xs ys)
    (hfg : ∀ x ∈ xs, ∀ y, R x y → g y = f x) : ys.mapM g = xs.mapM f := by
  induction h with
  | nil => rfl
  | @cons x y xs ys hxy _ ih =>
    rw [List.mapM_cons, List.mapM_cons, hfg x List.mem_cons_self y hxy,
      ih fun z hz => hfg z (List.mem_cons_of_mem _ hz)]

lemma DefinedIndex.sorted_eq_of_perm {is js : List DefinedIndex} (h : is.Perm js)
    (hn : (js.map (·.name)).Nodup) :
    is.mergeSort (fun a b => a.name ≤ b.name) = js.mergeSort fun a b => a.name ≤ b.name := by
  have hsorted (is : List DefinedIndex) :
      (is.mergeSort fun a b => a.name ≤ b.name).Pairwise fun a b => a.name ≤ b.name := by
    refine (List.pairwise_mergeSort (fun a b c hab hbc => ?_) (fun a b => ?_) is).imp ?_
    · simpa using String.le_trans (of_decide_eq_true hab) (of_decide_eq_true hbc)
    · simpa using String.le_total a.name b.name
    · exact of_decide_eq_true
  have hperm : (is.mergeSort fun a b => a.name ≤ b.name).Perm
      (js.mergeSort fun a b => a.name ≤ b.name) :=
    (List.mergeSort_perm _ _).trans (h.trans (List.mergeSort_perm _ _).symm)
  refine hperm.eq_of_pairwise (fun a b ha hb hab hba => ?_) (hsorted is) (hsorted js)
  have hmem {i : DefinedIndex} (hi : i ∈ js.mergeSort fun a b => a.name ≤ b.name) : i ∈ js :=
    (List.mergeSort_perm _ _).mem_iff.mp hi
  exact List.inj_on_of_nodup_map hn (hmem (hperm.mem_iff.mp ha)) (hmem hb)
    (String.le_antisymm hab hba)

namespace DefinedTable

variable {t : DefinedTable} {l : Listing}

lemma describeColumn_of_lists (h : t.Lists l) {c listed : DefinedColumn} (hc : c.Lists listed) :
    l.definition.describeColumn listed = t.describeColumn c := by
  obtain ⟨targets, htargets, rfl⟩ := hc
  have hname : l.definition.name = t.name := h.name
  have hunique : l.definition.uniqueColumns.contains c.name = t.uniqueColumns.contains c.name :=
    (h.uniques.filterMap _).contains_eq
  rw [describeColumn, describeColumn]
  dsimp only
  rw [hunique, hname]
  generalize c.targets = given at htargets
  match given with
  | [] => rw [htargets.eq_nil]
  | [target] => rw [htargets.eq_singleton]
  | first :: second :: rest =>
    have hlength : targets.length = rest.length + 2 := htargets.length_eq
    match targets, hlength with
    | _ :: _ :: _, _ => rfl

lemma describe_of_lists (h : t.Lists l) (hn : (t.indexes.map (·.name)).Nodup) :
    l.describe = t.describe := by
  rw [Listing.describe, describe,
    mapM_eq_of_forall₂ h.columns fun c _ listed hc => describeColumn_of_lists h hc,
    DefinedIndex.sorted_eq_of_perm h.indexes hn, h.name]

end DefinedTable

/-- Whatever the order in which the sets of the definitions come, the descriptions, the schema or what
is wrong with it, and the plan for any live schema are those of the definitions. -/
theorem describe_unordered {tables : List DefinedTable} {listings : List Listing}
    (h : List.Forall₂ DefinedTable.Lists tables listings)
    (hn : ((tables.flatMap (·.indexes)).map (·.name)).Nodup) :
    listings.map (·.describe) = tables.map (·.describe) ∧
      Schema.ofListings listings = Schema.ofDefinitions tables ∧
      ∀ live, (Schema.ofListings listings).map (reconcile · live) =
        (Schema.ofDefinitions tables).map (reconcile · live) := by
  have hdescribe : ∀ t ∈ tables, ∀ l, t.Lists l → l.describe = t.describe := by
    intro t ht l hl
    apply DefinedTable.describe_of_lists hl
    exact hn.sublist ((List.sublist_flatten_of_mem (List.mem_map_of_mem ht)).map _)
  have hschema : Schema.ofListings listings = Schema.ofDefinitions tables := by
    rw [Schema.ofListings, Schema.ofDefinitions, mapM_eq_of_forall₂ h hdescribe]
  exact ⟨map_eq_of_forall₂ h hdescribe, hschema, fun live => by rw [hschema]⟩

namespace Backwards

def author : DefinedTable where
  name := "author"
  columns := [{ name := "id", type := .integer, primaryKey := true }]

def book : DefinedTable where
  name := "book"
  columns := [{ name := "id", type := .integer, primaryKey := true },
    { name := "title", indexed := true },
    { name := "author_id", type := .integer, targets := ["author.id"] }]
  uniques := [["title"], ["author_id", "title"]]
  explicitIndexes := [⟨"by_title", ["title", "author_id"], false⟩, ⟨"by_author", ["author_id"], true⟩]

def listings : List Listing :=
  [author.listing,
    { book.listing with uniques := book.uniques.reverse, indexes := book.indexes.reverse }]

end Backwards

open Backwards in
theorem describe_unordered_backwards :
    List.Forall₂ DefinedTable.Lists [author, book] listings ∧
      (([author, book].flatMap (·.indexes)).map (·.name)).Nodup ∧
      listings.map (·.indexes) ≠ [author, book].map (·.indexes) ∧
      listings.map (·.describe) = [author, book].map (·.describe) ∧
      Schema.ofListings listings = Schema.ofDefinitions [author, book] := by
  have hbook : book.Lists { book.listing with
      uniques := book.uniques.reverse, indexes := book.indexes.reverse } :=
    { book.lists_listing with
      uniques := List.reverse_perm _
      indexes := List.reverse_perm _ }
  have hlists : List.Forall₂ DefinedTable.Lists [author, book] listings :=
    .cons author.lists_listing (.cons hbook .nil)
  have hnames : (([author, book].flatMap (·.indexes)).map (·.name)).Nodup := by decide
  obtain ⟨hdescribed, hschema, -⟩ := describe_unordered hlists hnames
  exact ⟨hlists, hnames, by decide, hdescribed, hschema⟩

end Tablewright
