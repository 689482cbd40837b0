import Tablewright.Proofs.Migration.Reconcile

namespace Tablewright

open LiveSchema

/-- At each place of a plan the schema reached so far admits the change. -/
theorem reconcile_admits {tables liveTables : List Table} {indexes liveIndexes : List Index}
    {declared : Schema} {plan : Plan} (hb : Schema.build tables indexes = .ok declared)
    (hr : reconcile declared (.ofDescriptions liveTables liveIndexes) = .ok plan)
    (n : Nat) (d : Ddl) (hd : plan.operations[n]? = some d) :
    ((LiveSchema.ofDescriptions liveTables liveIndexes).applyAll
      (plan.operations.take n)).Admits d := by
  have hn : (LiveSchema.ofDescriptions liveTables liveIndexes).Named :=
    named_ofDescriptions liveTables liveIndexes
  exact (runs_of_reconcile hb hn hr).admits n d hd

namespace Journal

def authors : Table :=
  ⟨"Authors", [{ name := "id", kind := .integer, primaryKey := true },
    { name := "name", kind := .text }]⟩

def posts : Table :=
  ⟨"posts", [{ name := "id", kind := .integer, primaryKey := true },
    { name := "author", kind := .integer, references := some ⟨"AUTHORS", "id"⟩ }]⟩

def byAuthor : Index := ⟨"posts_author", "Posts", ["AUTHOR"], false⟩

def declared : Schema := .ofDescriptions [posts, authors] [byAuthor]

def livePosts : List Table :=
  [⟨"Posts", [{ name := "ID", kind := .integer, primaryKey := true }]⟩, ⟨"POSTS", []⟩]

def plan : Plan :=
  ⟨[.createTable authors,
    .addColumn "Posts" { name := "author", kind := .integer, references := some ⟨"AUTHORS", "id"⟩ },
    .createIndex byAuthor]⟩

end Journal

open Journal in
theorem reconcile_admits_journal :
    Schema.build [posts, authors] [byAuthor] = .ok Journal.declared ∧
      reconcile Journal.declared (.ofDescriptions livePosts []) = .ok Journal.plan ∧
      Journal.plan.operations[2]? = some (.createIndex byAuthor) ∧
      ((LiveSchema.ofDescriptions livePosts []).applyAll
        (Journal.plan.operations.take 2)).Admits (.createIndex byAuthor) := by
  have hb : Schema.build [posts, authors] [byAuthor] = .ok Journal.declared := by rfl
  have hr : reconcile Journal.declared (.ofDescriptions livePosts []) = .ok Journal.plan := by rfl
  exact ⟨hb, hr, rfl, reconcile_admits hb hr 2 _ rfl⟩

/-- The changes of a plan complete the live schema, keep what it had, and leave nothing to plan. -/
theorem reconcile_completes {tables liveTables : List Table} {indexes liveIndexes : List Index}
    {declared : Schema} {plan : Plan} (hb : Schema.build tables indexes = .ok declared)
    (hr : reconcile declared (.ofDescriptions liveTables liveIndexes) = .ok plan) :
    let live := LiveSchema.ofDescriptions liveTables liveIndexes
    let migrated := live.applyAll plan.operations
    migrated.Holds declared ∧ live.Extends migrated ∧ reconcile declared migrated = .ok ⟨[]⟩ := by
  intro live migrated
  have hn : live.Named := named_ofDescriptions liveTables liveIndexes
  have hholds : migrated.Holds declared := holds_of_reconcile hb hn hr
  exact ⟨hholds, (runs_of_reconcile hb hn hr).extends_applyAll, reconcile_of_holds hholds⟩

open Journal in
theorem reconcile_completes_journal :
    Schema.build [posts, authors] [byAuthor] = .ok Journal.declared ∧
      reconcile Journal.declared (.ofDescriptions livePosts []) = .ok Journal.plan ∧
      ((LiveSchema.ofDescriptions livePosts []).applyAll
        Journal.plan.operations).Holds Journal.declared ∧
      (LiveSchema.ofDescriptions livePosts []).Extends
        ((LiveSchema.ofDescriptions livePosts []).applyAll Journal.plan.operations) ∧
      reconcile Journal.declared ((LiveSchema.ofDescriptions livePosts []).applyAll
        Journal.plan.operations) = .ok ⟨[]⟩ := by
  have hb : Schema.build [posts, authors] [byAuthor] = .ok Journal.declared := by rfl
  have hr : reconcile Journal.declared (.ofDescriptions livePosts []) = .ok Journal.plan := by rfl
  exact ⟨hb, hr, reconcile_completes hb hr⟩

end Tablewright
