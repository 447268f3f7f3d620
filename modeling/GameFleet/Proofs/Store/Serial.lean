import GameFleet.Proofs.Store.Clients

/-!
# No update is lost

`Clientele.serialized_of_reachable` says that no update is lost. What is stored is what the
committed mutations make of the empty store one after the other, each of the object that is
stored when its turn comes (`Deed.apply`), although each was worked out on an object that
was read before. A field of an instance that one report has set is as it was set until
another report sets it (`Clientele.Faithful.field_of_reports`).
-/

set_option linter.unusedSectionVars false

open Relation

namespace GameFleet

namespace Clientele

variable {kind : Kind} {w v : Clientele kind}

/-- A deed does to the store of its moment what was done to it. -/
theorem Replaces.apply_eq {i : Nat} {c : Commit kind.Obj} (h : w.Replaces i c) :
    c.deed.apply (w.past i) = (w.past i).commit c.change := by
  unfold Replaces at h
  unfold Deed.apply
  split at h
  · next birth a hdeed =>
    rw [hdeed, h.2]
  · next a mutate hdeed =>
    obtain ⟨s, -, -, -, -, -, hmutate, hold, -, hchange⟩ := h
    simp only [hdeed, hold, hmutate, hchange]
  · next k hdeed =>
    obtain ⟨old, hold, hchange⟩ := h
    simp only [hdeed, hold, hchange]

theorem changes_getElem? {i : Nat} {c : Commit kind.Obj} (hc : w.log[i]? = some c) :
    w.changes[i]? = some c.change := by
  rw [changes, List.getElem?_map, hc, Option.map_some]

namespace Faithful

theorem replay_take (h : w.Faithful) {i : Nat} (hi : i ≤ w.log.length) :
    (w.log.take i).foldl (fun s c => c.deed.apply s) .empty = w.past i := by
  induction i with
  | zero => rfl
  | succ i ih =>
    have hc : w.log[i]? = some w.log[i] := List.getElem?_eq_getElem (by omega)
    rw [List.take_add_one, hc, Option.toList_some, List.foldl_append, ih (by omega),
      List.foldl_cons, List.foldl_nil, (h.replaces i _ hc).apply_eq]
    exact (Store.past_succ (changes_getElem? hc)).symm

theorem version_eq (h : w.Faithful) {i : Nat} {c : Commit kind.Obj} {a : kind.Obj}
    (hc : w.log[i]? = some c) (ha : c.change.after? = some a) : Resource.version a = i + 1 := by
  have hi : i < w.log.length := (List.getElem?_eq_some_iff.1 hc).1
  rw [(h.records.legal i _ (changes_getElem? hc)).version a ha,
    Store.version_past (by rw [length_changes]; omega)]

/-- An update leaves what it makes of the object that was stored. -/
theorem get?_succ_of_update (h : w.Faithful) {i : Nat} {c : Commit kind.Obj} {a : kind.Obj}
    {mutate : kind.Obj → kind.Obj} (hc : w.log[i]? = some c) (hdeed : c.deed = .update a mutate) :
    ∃ old, (w.past i).get? (Resource.key c.change.object) = some old ∧
      (w.past (i + 1)).get? (Resource.key c.change.object) =
        some ((w.past i).successor old (mutate old)) := by
  have hreplaces := h.replaces i c hc
  simp only [Replaces, hdeed] at hreplaces
  obtain ⟨s, -, -, -, -, -, hmutate, hold, -, hchange⟩ := hreplaces
  have hkey : Resource.key c.change.object = Resource.key a := by
    rw [hchange, Change.object, Store.key_successor]
  refine ⟨s.object, by rw [hkey, hold], ?_⟩
  rw [past, Store.past_succ (changes_getElem? hc), Store.get?_commit, if_pos rfl, hchange, hmutate]
  rfl

end Faithful

/-- What a run leaves behind when no update was lost. -/
structure Serialized (w : Clientele kind) : Prop where
  /-- The committed mutations, each of what was stored when its turn came, make the store. -/
  replay : w.log.foldl (fun s c => c.deed.apply s) .empty = w.store
  /-- Their turns came in the order of versions. -/
  version : ∀ i c a, w.log[i]? = some c → c.change.after? = some a → Resource.version a = i + 1
  /-- An update replaced the object that its author had read, and nobody wrote in between. -/
  replaces : ∀ i c, w.log[i]? = some c → w.Replaces i c
  /-- A call that returned an object had stored it, or had left it as it was read. -/
  returned : ∀ n call b, w.calls[n]? = some call → call.left = .done (.ok (some b)) →
    w.WroteOnce n call b ∨ (∀ c ∈ w.log, c.author ≠ .call n) ∧
      ∃ s ∈ w.sightings, s.author = .call n ∧ Resource.key s.object = call.key ∧
        call.edit s.object = (b, false)
  /-- A call that returned no object has not written. -/
  failed : ∀ n call r, w.calls[n]? = some call → call.left = .done r → (∀ b, r ≠ .ok (some b)) →
    ∀ c ∈ w.log, c.author ≠ .call n

theorem Consistent.serialized (h : w.Consistent) : w.Serialized where
  replay := by
    rw [← h.faithful.past_length, ← h.faithful.replay_take le_rfl, List.take_length]
  version _ _ _ hc ha := h.faithful.version_eq hc ha
  replaces := h.faithful.replaces
  returned n call b hcall hleft := by
    obtain ⟨-, p, hp, hkeeps⟩ := h.goes n call hcall
    rw [hleft] at hkeeps
    rcases hkeeps with hwrote | ⟨hnone, a, hseen, hedit⟩
    · exact Or.inl (hp.wrote b hwrote)
    · obtain ⟨hkey, s, hs, hauthor, rfl⟩ := hp.seen a hseen
      exact Or.inr ⟨hp.none hnone, s, hs, hauthor, hkey, hedit⟩
  failed n call r hcall hleft hr := by
    obtain ⟨-, p, hp, hkeeps⟩ := h.goes n call hcall
    rw [hleft] at hkeeps
    rcases r with e | _ | b
    · exact hp.none hkeeps
    · exact hp.none hkeeps
    · exact absurd rfl (hr b)

/-- A commit of a report that changes the status by `f`. -/
def Reports (f : GameServerStatus → GameServerStatus) (c : Commit GameServer) : Prop :=
  ∃ a, c.deed = .update a fun g => (Report.edit f g).1

/-- A field that a report has set is as it was set while other reports keep it. -/
theorem Faithful.field_of_reports {w : Clientele .gameServer} (h : w.Faithful) {β : Type}
    {field : GameServerStatus → β} {v : β} {i m : Nat} {c : Commit GameServer} {k : Key}
    (hc : w.log[i]? = some c) (hkey : Resource.key c.change.object = k)
    {f : GameServerStatus → GameServerStatus} (hf : Reports f c) (hset : ∀ s, field (f s) = v)
    (him : i < m) (hm : m ≤ w.log.length)
    (hlater : ∀ j d, i < j → j < m → w.log[j]? = some d → Resource.key d.change.object = k →
      ∃ f', Reports f' d ∧ ∀ s, field (f' s) = field s) :
    ∃ g : GameServer, (w.past m).get? k = some g ∧ field g.status = v := by
  induction m, him using Nat.le_induction with
  | base =>
    obtain ⟨a, hdeed⟩ := hf
    obtain ⟨old, -, hnew⟩ := h.get?_succ_of_update hc hdeed
    refine ⟨_, hkey ▸ hnew, ?_⟩
    change field (Report.edit f old).1.status = v
    rw [Report.status_edit, hset]
  | succ m him ih =>
    have hd : w.log[m]? = some w.log[m] := List.getElem?_eq_getElem (by omega)
    obtain ⟨g, hg, hfield⟩ := ih (by omega) fun j d hij hjm => hlater j d hij (by omega)
    by_cases hk : Resource.key w.log[m].change.object = k
    · obtain ⟨f', ⟨a, hdeed⟩, hkeep⟩ := hlater m _ him (Nat.lt_succ_self m) hd hk
      obtain ⟨old, hold, hnew⟩ := h.get?_succ_of_update hd hdeed
      obtain rfl : g = old := Option.some.inj (hg.symm.trans (hk ▸ hold))
      refine ⟨_, hk ▸ hnew, ?_⟩
      change field (Report.edit f' g).1.status = v
      rw [Report.status_edit, hkeep, hfield]
    · refine ⟨g, ?_, hfield⟩
      rw [past, Store.past_succ (changes_getElem? hd), Store.get?_commit, if_neg hk]
      exact hg

/-- However reads, writes and calls fall among each other, no update is lost : what was read
is what is replaced, and the store is what the committed mutations make one after the
other. So a field of an instance that one report has set is as it was set, whatever reports
of other fields are committed after it. -/
theorem serialized_of_reachable :
    (∀ (kind : Kind) (w : Clientele kind), Reachable w → w.Serialized) ∧
    ∀ (w : Clientele .gameServer), Reachable w → ∀ (β : Type) (field : GameServerStatus → β)
      (v : β) (i m : Nat) (c : Commit GameServer) (k : Key)
      (f : GameServerStatus → GameServerStatus),
      w.log[i]? = some c → Resource.key c.change.object = k → Reports f c →
      (∀ s, field (f s) = v) → i < m → m ≤ w.log.length →
      (∀ j d, i < j → j < m → w.log[j]? = some d → Resource.key d.change.object = k →
        ∃ f', Reports f' d ∧ ∀ s, field (f' s) = field s) →
      ∃ g : GameServer, (w.past m).get? k = some g ∧ field g.status = v := by
  refine ⟨fun kind w h => (consistent_start.run h).serialized, ?_⟩
  intro w h β field v i m c k f hc hkey hf hset him hm hlater
  exact (consistent_start.run h).faithful.field_of_reports hc hkey hf hset him hm hlater

def arena : GameServer := { (default : GameServer) with metadata := Meta.new "" "arena" }

def countPlayers (s : GameServerStatus) : GameServerStatus := { s with activePlayers := 3 }

def markHealthy (s : GameServerStatus) : GameServerStatus := { s with health := .healthy }

theorem minds_report (f : GameServerStatus → GameServerStatus) :
    @Minds .gameServer (Report.edit f) := by
  intro a copy h
  unfold Report.edit at h
  split at h
  · cases h
  · cases h
    exact ⟨rfl, rfl⟩

/-- Two reports have read one instance when the first of them writes. The other one loses,
reads again and writes, and both fields are as they were reported. -/
theorem serialized_race :
    ∃ w : Clientele .gameServer, Reachable w ∧
      (∃ call b, w.calls[1]? = some call ∧ call.left = .done (.ok (some b))) ∧ w.Serialized ∧
      ∃ g : GameServer, (w.past 3).get? ⟨"", "arena"⟩ = some g ∧ g.status.activePlayers = 3 := by
  have hstart : Reachable (start : Clientele .gameServer) := ReflTransGen.refl
  have hcreated := hstart.tail (.create _ 0 ⟨⟨7⟩, ⟨0, 0⟩⟩ arena)
  have hbegun := (hcreated.tail
    (.begin _ ⟨2, .fixed 5 100⟩ ⟨"", "arena"⟩ (Report.edit countPlayers) (minds_report _))).tail
    (.begin _ ⟨2, .fixed 5 100⟩ ⟨"", "arena"⟩ (Report.edit markHealthy) (minds_report _))
  have hread := (hbegun.tail (.serveGet _ 0 _ _ _ rfl rfl)).tail (.serveGet _ 1 _ _ _ rfl rfl)
  have hraced := (hread.tail (.serveUpdate _ 0 _ _ _ rfl rfl)).tail
    (.serveUpdate _ 1 _ _ _ rfl rfl)
  have hagain := ((hraced.tail (.pause _ 1 _ _ _ rfl rfl)).tail
    (.serveGet _ 1 _ _ _ rfl rfl)).tail (.serveUpdate _ 1 _ _ _ rfl rfl)
  refine ⟨_, hagain, ⟨_, _, rfl, rfl⟩, serialized_of_reachable.1 _ _ hagain, ?_⟩
  refine serialized_of_reachable.2 _ hagain _ (·.activePlayers) 3 1 3 _ _ countPlayers rfl
    (by decide +kernel) ⟨_, rfl⟩ (fun _ => rfl) (by omega) (by decide +kernel) ?_
  intro j d hj hj' hd _
  obtain rfl : j = 2 := by omega
  cases hd
  exact ⟨markHealthy, ⟨_, rfl⟩, fun _ => rfl⟩

end Clientele

end GameFleet
