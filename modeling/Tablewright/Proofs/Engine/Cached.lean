import Mathlib.Data.List.Dedup
import Tablewright.Proofs.Engine.Job
import Tablewright.Proofs.Schema.Keyed

namespace Tablewright

namespace StatementCache

variable {ε : Type}

abbrev Prepared (ε : Type) := Except ε (Handle String)

/-- Work on a cache with an account of the texts that have been prepared. What was done stays done
when the work fails. -/
abbrev Work (ε : Type) :=
  ExceptT ε (StateM (StatementCache String × List (String × Prepared ε)))

def preparing (outcome : Prepared ε) (sql : String) : Work ε (Handle String) := do
  modify fun (c, calls) => (c, calls ++ [(sql, outcome)])
  ExceptT.mk (pure outcome)

def fetch (sql : String) (outcome : Prepared ε) : Work ε (Handle String) := do
  let (c, _) ← get
  let (h, c) ← c.getOrPrepare (preparing outcome) sql
  modify fun (_, calls) => (c, calls)
  return h

inductive Ask (ε : Type) where
  | get (sql : String) (outcome : Prepared ε)
  | invalidate
  | close

/-- What a cache has done: the answer for a text with the calls that prepared it, or a clearing. -/
inductive Turn (ε : Type) where
  | got (sql : String) (answer : Prepared ε) (calls : List (String × Prepared ε))
  | invalidated (dropped : Nat)
  | closed

namespace Turn

def clears : Turn ε → Bool
  | got .. => false
  | invalidated _ | closed => true

def served : Turn ε → List (String × Handle String)
  | got sql (.ok h) _ => [(sql, h)]
  | _ => []

def prepared : Turn ε → List (String × Handle String)
  | got _ _ calls => calls.filterMap fun call => call.2.toOption.map (call.1, ·)
  | _ => []

end Turn

def turn (c : StatementCache String) : Ask ε → Turn ε × StatementCache String
  | .get sql outcome =>
    let (answer, c, calls) := (fetch sql outcome).run (c, [])
    (.got sql answer calls, c)
  | .invalidate => (.invalidated c.size, c.clear)
  | .close => (.closed, c.clear)

/-- The history of a new cache that is asked one thing after another, latest first, and the cache
that is left. -/
def play (asks : List (Ask ε)) : List (Turn ε) × StatementCache String :=
  asks.foldl (fun s a => ((s.2.turn a).1 :: s.1, (s.2.turn a).2)) ([], {})

def current (turns : List (Turn ε)) : List (Turn ε) := turns.takeWhile (!·.clears)

def epochs (turns : List (Turn ε)) : List (List (Turn ε)) := turns.splitOnP Turn.clears

/-- No text was prepared twice, and what was served is what was prepared. -/
structure Once (epoch : List (Turn ε)) : Prop where
  distinct : ((epoch.flatMap Turn.prepared).map (·.1)).Nodup
  served : ∀ p, p ∈ epoch.flatMap Turn.served ↔ p ∈ epoch.flatMap Turn.prepared

def requested (turns : List (Turn ε)) : List String :=
  ((current turns).flatMap Turn.served).map (·.1)

section Split

variable {t : Turn ε} {turns : List (Turn ε)}

lemma epochs_eq (turns : List (Turn ε)) : ∃ older, epochs turns = current turns :: older := by
  induction turns with
  | nil => exact ⟨[], List.splitOnP_nil⟩
  | cons t turns ih =>
    obtain ⟨older, hturns⟩ := ih
    rw [epochs, current, List.splitOnP_cons_eq_if_modifyHead, List.takeWhile_cons]
    cases t.clears with
    | true => exact ⟨_, rfl⟩
    | false =>
      exact ⟨older, congrArg (List.modifyHead (t :: ·)) hturns⟩

lemma epochs_cons_of_clears (h : t.clears = true) : epochs (t :: turns) = [] :: epochs turns := by
  rw [epochs, List.splitOnP_cons_eq_if_modifyHead, if_pos h]
  rfl

lemma current_cons_of_clears (h : t.clears = true) : current (t :: turns) = [] := by
  rw [current, List.takeWhile_cons, h]
  rfl

lemma current_cons (h : t.clears = false) : current (t :: turns) = t :: current turns := by
  rw [current, List.takeWhile_cons, h]
  rfl

lemma forall_epochs_cons {p : List (Turn ε) → Prop} (h : t.clears = false)
    (hturns : ∀ epoch ∈ epochs turns, p epoch) (hp : p (t :: current turns)) :
    ∀ epoch ∈ epochs (t :: turns), p epoch := by
  obtain ⟨older, holder⟩ := epochs_eq turns
  have hcons : epochs (t :: turns) = (t :: current turns) :: older := by
    rw [epochs, List.splitOnP_cons_eq_if_modifyHead, h, if_neg Bool.false_ne_true]
    exact congrArg (List.modifyHead (t :: ·)) holder
  rw [hcons]
  refine List.forall_mem_cons.mpr ⟨hp, fun epoch he => hturns epoch ?_⟩
  rw [holder]
  exact List.mem_cons_of_mem _ he

end Split

lemma run_fetch (sql : String) (outcome : Prepared ε) (c : StatementCache String)
    (calls : List (String × Prepared ε)) :
    (fetch sql outcome).run (c, calls) =
      match c.handles.lookup sql with
      | some h => (.ok h, { c with hits := c.hits + 1 }, calls)
      | none =>
        match outcome with
        | .ok h => (.ok h, { c with handles := c.handles ++ [(sql, h)], misses := c.misses + 1 },
            calls ++ [(sql, .ok h)])
        | .error e => (.error e, c, calls ++ [(sql, .error e)]) := by
  have hfetch : (fetch sql outcome).run (c, calls) = (do
      let (h, c) ← c.getOrPrepare (preparing outcome) sql
      modify fun (_, calls) => (c, calls)
      return h : Work ε (Handle String)).run (c, calls) := rfl
  rw [hfetch, getOrPrepare]
  cases c.handles.lookup sql with
  | some h => rfl
  | none => cases outcome <;> rfl

lemma turn_get (sql : String) (outcome : Prepared ε) (c : StatementCache String) :
    c.turn (.get sql outcome) =
      match c.handles.lookup sql with
      | some h => (.got sql (.ok h) [], { c with hits := c.hits + 1 })
      | none =>
        match outcome with
        | .ok h => (.got sql (.ok h) [(sql, .ok h)],
            { c with handles := c.handles ++ [(sql, h)], misses := c.misses + 1 })
        | .error e => (.got sql (.error e) [(sql, .error e)], c) := by
  rw [turn, run_fetch]
  cases c.handles.lookup sql with
  | some h => rfl
  | none => cases outcome <;> rfl

lemma eq_of_failed {sql : String} {outcome answer : Prepared ε} {c c' : StatementCache String}
    {calls : List (String × Prepared ε)} {e : ε}
    (hturn : c.turn (.get sql outcome) = (.got sql answer calls, c'))
    (hcall : (sql, .error e) ∈ calls) : answer = .error e ∧ c' = c := by
  rw [turn_get] at hturn
  cases hlookup : c.handles.lookup sql with
  | some h =>
    rw [hlookup] at hturn
    cases hturn
    cases hcall
  | none =>
    rw [hlookup] at hturn
    cases outcome with
    | ok h =>
      cases hturn
      cases List.mem_singleton.mp hcall
    | error e' =>
      cases hturn
      cases List.mem_singleton.mp hcall
      exact ⟨rfl, rfl⟩

namespace Once

variable {epoch : List (Turn ε)} {sql : String} {h : Handle String}

lemma nil : Once ([] : List (Turn ε)) := ⟨List.nodup_nil, fun _ => Iff.rfl⟩

lemma hit (hepoch : Once epoch) (hp : (sql, h) ∈ epoch.flatMap Turn.prepared) :
    Once (.got sql (.ok h) [] :: epoch) := by
  refine ⟨hepoch.distinct, fun p => ?_⟩
  show p ∈ (sql, h) :: epoch.flatMap Turn.served ↔ p ∈ epoch.flatMap Turn.prepared
  rw [List.mem_cons, hepoch.served, or_iff_right_of_imp]
  rintro rfl
  exact hp

lemma miss (hepoch : Once epoch)
    (hnew : sql ∉ (epoch.flatMap Turn.prepared).map (·.1)) :
    Once (.got sql (.ok h) [(sql, .ok h)] :: epoch) := by
  refine ⟨List.nodup_cons.mpr ⟨hnew, hepoch.distinct⟩, fun p => ?_⟩
  show p ∈ (sql, h) :: epoch.flatMap Turn.served ↔ p ∈ (sql, h) :: epoch.flatMap Turn.prepared
  rw [List.mem_cons, List.mem_cons, hepoch.served]

lemma failed (hepoch : Once epoch) (e : ε) :
    Once (.got sql (.error e) [(sql, .error e)] :: epoch) :=
  ⟨hepoch.distinct, hepoch.served⟩

end Once

/-- The handles of a cache are those prepared since the last clearing, and its counts go back to the
beginning. -/
structure Kept (turns : List (Turn ε)) (c : StatementCache String) : Prop where
  once : ∀ epoch ∈ epochs turns, Once epoch
  handles : c.handles.reverse = (current turns).flatMap Turn.prepared
  misses : c.misses = (turns.flatMap Turn.prepared).length
  lookups : c.hits + c.misses = (turns.flatMap Turn.served).length

namespace Kept

variable {turns : List (Turn ε)} {c : StatementCache String}

lemma current_once (h : Kept turns c) : Once (current turns) := by
  obtain ⟨older, holder⟩ := epochs_eq turns
  exact h.once _ (holder ▸ List.mem_cons_self)

lemma mem_handles_iff (h : Kept turns c) {p : String × Handle String} :
    p ∈ c.handles ↔ p ∈ (current turns).flatMap Turn.prepared := by
  rw [← h.handles, List.mem_reverse]

lemma mem_requested_iff (h : Kept turns c) {sql : String} :
    sql ∈ requested turns ↔ sql ∈ ((current turns).flatMap Turn.prepared).map (·.1) := by
  simp only [requested, List.mem_map, h.current_once.served]

lemma lookup_eq_none_iff (h : Kept turns c) {sql : String} :
    c.handles.lookup sql = none ↔ sql ∉ ((current turns).flatMap Turn.prepared).map (·.1) := by
  rw [show c.handles.lookup sql = Keyed.get? c.handles sql from rfl, Keyed.get?_eq_none_iff,
    Keyed.keys, List.mem_map, List.mem_map]
  simp only [h.mem_handles_iff]

lemma contains_iff (h : Kept turns c) {sql : String} :
    c.contains sql ↔ sql ∈ requested turns := by
  rw [contains, Option.isSome_iff_ne_none, Ne, h.lookup_eq_none_iff, not_not, h.mem_requested_iff]

lemma size_eq (h : Kept turns c) : c.size = (requested turns).dedup.length := by
  have hperm : (((current turns).flatMap Turn.prepared).map (·.1)).Perm (requested turns).dedup :=
    (List.perm_ext_iff_of_nodup h.current_once.distinct (List.nodup_dedup _)).mpr fun sql => by
      rw [List.mem_dedup, h.mem_requested_iff]
  rw [size, ← hperm.length_eq, List.length_map, ← h.handles, List.length_reverse]

lemma cleared (h : Kept turns c) {t : Turn ε} (ht : t.clears = true)
    (hserved : t.served = []) (hprepared : t.prepared = []) : Kept (t :: turns) c.clear where
  once := by
    rw [epochs_cons_of_clears ht]
    exact List.forall_mem_cons.mpr ⟨.nil, h.once⟩
  handles := by
    rw [current_cons_of_clears ht]
    rfl
  misses := by
    rw [List.flatMap_cons, hprepared]
    exact h.misses
  lookups := by
    rw [List.flatMap_cons, hserved]
    exact h.lookups

lemma turn (h : Kept turns c) (a : Ask ε) : Kept ((c.turn a).1 :: turns) (c.turn a).2 := by
  cases a with
  | invalidate => exact h.cleared rfl rfl rfl
  | close => exact h.cleared rfl rfl rfl
  | get sql outcome =>
    rw [turn_get]
    cases hlookup : c.handles.lookup sql with
    | some handle =>
      have hmem := h.mem_handles_iff.mp (mem_of_lookup hlookup)
      refine ⟨forall_epochs_cons rfl h.once (h.current_once.hit hmem), ?_, h.misses, ?_⟩
      · rw [current_cons rfl]
        exact h.handles
      · exact (Nat.add_right_comm ..).trans (congrArg (· + 1) h.lookups)
    | none =>
      have hnew := h.lookup_eq_none_iff.mp hlookup
      cases outcome with
      | ok handle =>
        refine ⟨forall_epochs_cons rfl h.once (h.current_once.miss hnew), ?_,
          congrArg (· + 1) h.misses, congrArg (· + 1) h.lookups⟩
        rw [current_cons rfl, List.reverse_append, h.handles]
        rfl
      | error e =>
        refine ⟨forall_epochs_cons rfl h.once (h.current_once.failed e), ?_, h.misses, h.lookups⟩
        rw [current_cons rfl]
        exact h.handles

end Kept

lemma kept_play (asks : List (Ask ε)) : Kept (play asks).1 (play asks).2 := by
  have hstart : Kept ([] : List (Turn ε)) {} := by
    refine ⟨fun epoch he => ?_, rfl, rfl, rfl⟩
    rw [epochs, List.splitOnP_nil, List.mem_singleton] at he
    exact he ▸ .nil
  rw [play]
  exact List.foldlRecOn (motive := fun s : List (Turn ε) × StatementCache String => Kept s.1 s.2)
    asks _ hstart fun _ hs a _ => hs.turn a

/-- Whatever a cache is asked and whichever texts fail to be prepared: between two clearings each
text is prepared once, and all who ask for it are given what was prepared; the cache holds the texts
asked for since the last clearing; its counts are those of all that was prepared and of all that was
served; a clearing tells how many texts it drops; and what fails to be prepared leaves no mark. -/
theorem play_prepares_once (asks : List (Ask ε)) :
    let turns := (play asks).1
    let c := (play asks).2
    (∀ epoch ∈ epochs turns, ((epoch.flatMap Turn.prepared).map (·.1)).Nodup ∧
      ∀ p, p ∈ epoch.flatMap Turn.served ↔ p ∈ epoch.flatMap Turn.prepared) ∧
    c.size = (requested turns).dedup.length ∧
    (∀ sql, c.contains sql ↔ sql ∈ requested turns) ∧
    c.misses = (turns.flatMap Turn.prepared).length ∧
    c.hits + c.misses = (turns.flatMap Turn.served).length ∧
    c.turn (ε := ε) .invalidate =
      (.invalidated (requested turns).dedup.length, { c with handles := [] }) ∧
    ∀ sql (outcome answer : Prepared ε) calls c' e,
      c.turn (.get sql outcome) = (.got sql answer calls, c') →
        (sql, .error e) ∈ calls → answer = .error e ∧ c' = c := by
  intro turns c
  have hkept : Kept turns c := kept_play asks
  refine ⟨fun epoch he => ?_, hkept.size_eq, fun sql => hkept.contains_iff, hkept.misses,
    hkept.lookups, ?_, fun sql outcome answer calls c' e => eq_of_failed⟩
  · exact ⟨(hkept.once epoch he).distinct, (hkept.once epoch he).served⟩
  · rw [← hkept.size_eq]
    rfl

end StatementCache

lemma Connection.run_prepared_turn (sql : String) (x : Exchange) (c : Connection) :
    ∃ answer calls cache,
      c.cache.turn (.get sql (.ok ⟨sql, c.generation⟩)) = (.got sql answer calls, cache) ∧
        (prepared sql).run (x, c) =
          (answer, x.noteLookup c.number sql (c.cache.contains sql), { c with cache }) := by
  rw [StatementCache.turn_get, run_prepared, StatementCache.contains]
  cases c.cache.handles.lookup sql with
  | some h => exact ⟨_, _, _, rfl, rfl⟩
  | none => exact ⟨_, _, _, rfl, rfl⟩

end Tablewright
