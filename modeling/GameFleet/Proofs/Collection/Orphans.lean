import GameFleet.Plane.Sample
import GameFleet.Proofs.Collection.Intervention
import GameFleet.Proofs.Plane.Household

/-!
# What a deleted collection leaves behind

The instances that belong to a collection carry its label and are owned by it
(`GameServer.Belongs`). They are deleted when the informer tells of its deletion : a cleanup
lists them, once, and deletes what it has listed.

A pass over the collection that is under way then may still make instances after that, and
nobody deletes these (`Household.left_behind`). If no pass is under way whenever a cleanup
lists them, none is left when the household is quiet (`Household.none_left_of_run`). Until then
the collection is in the cache, or a cleanup is due, or one is deleting those that are left
(`Household.Covered`).
-/

namespace GameFleet

open Sample (arenaKey)

/-! ## Belongings -/

namespace GameServer

/-- The instance carries the label of the collection with this key, and is owned by it. -/
def Belongs (key : Key) (g : GameServer) : Prop :=
  g.IsMember key ∧ g.metadata.isOwnedBy (Resource.kind Collection) key.name = true

variable {key key' : Key} {g g' : GameServer}

theorem IsMember.key_eq (h : g.IsMember key) (h' : g.IsMember key') : key = key' := by
  obtain ⟨ns, name⟩ := key
  obtain ⟨hns, hname⟩ := h
  rw [h'.1] at hns
  rw [h'.2] at hname
  cases hns
  cases hname
  rfl

theorem Belongs.of_metadata_eq (h : g.Belongs key) (hmeta : g.metadata = g'.metadata) :
    g'.Belongs key := by
  unfold Belongs IsMember collection? at h ⊢
  rwa [← hmeta]

end GameServer

/-- Whatever belongs to the collection is under one of these keys. -/
def World.BelongingsIn (w : World) (key : Key) (keys : List Key) : Prop :=
  ∀ k g, (w.stores .gameServer).get? k = some g → g.Belongs key → k ∈ keys

/-- The request makes an instance belong to the collection that did not before. -/
def Request.Endows (w : World) (key : Key) : Request → Prop
  | .create .gameServer g => g.Belongs key
  | .update .gameServer g => g.Belongs key ∧
    ∀ old, (w.stores .gameServer).get? (Resource.key g) = some old → ¬old.Belongs key
  | _ => False

section

variable {key : Key} {keys : List Key} {w v : World} {d : Duty} {s : Notes} {request : Request}
  {answer : request.Answer}

/-- Only a pass that has found the collection makes belongings of it. -/
theorem Duty.belongingsIn_of_may (hw : w.Recorded) (hs : s.Sound w)
    (hpass : d.IsPassOver key → ¬s.Found key)
    (hask : (∃ asked, d = .ask asked) → ¬request.Endows w key) (hmay : d.May s request)
    (hserves : w.Serves request answer v) (h : w.BelongingsIn key keys) :
    v.BelongingsIn key keys := by
  intro k g hg hbelongs
  rcases World.stored_after hw .gameServer k hserves with hsame | ⟨a, birth, rfl, hkey, -, hv⟩ |
    ⟨a, old, rfl, hkey, hold, hversion, hv⟩ | ⟨-, hv⟩
  · exact h k g (hsame ▸ hg) hbelongs
  · obtain rfl := Option.some.inj (hg.symm.trans hv)
    have ha : GameServer.Belongs key a := hbelongs
    cases d with
    | pass context r k' =>
      cases r with
      | collection =>
        obtain ⟨hfound, hmember⟩ := hmay
        obtain rfl : key = k' := ha.1.key_eq hmember
        exact absurd hfound (hpass ⟨context, rfl⟩)
      | _ => exact hmay.elim
    | ask asked =>
      obtain rfl : asked = _ := hmay
      exact absurd ha (hask ⟨_, rfl⟩)
    | _ => exact hmay.elim
  · obtain rfl := Option.some.inj (hg.symm.trans hv)
    have ha : GameServer.Belongs key a := hbelongs
    -- An update that is let through was made of the stored instance, which belonged then too.
    refine h k old hold ?_
    rcases hmay with ⟨seen, hseen, hseenKey, hseenVersion, hwho⟩ | rfl
    · have hstored : (w.stores .gameServer).get? (Resource.key seen) = some old := by
        rw [← hseenKey, hkey, hold]
      obtain rfl : seen = old :=
        World.eq_of_past hw (hs.servers seen hseen) hstored (hseenVersion.symm.trans hversion)
      rcases hwho with hmeta | hnone
      · exact ha.of_metadata_eq hmeta
      · have hmember := ha.1.2
        rw [hnone] at hmember
        cases hmember
    · by_contra hnot
      refine hask ⟨_, rfl⟩ ⟨ha, fun old' hold' => ?_⟩
      obtain rfl : old = old' := Option.some.inj (hold.symm.trans (hkey ▸ hold'))
      exact hnot
  · rw [hv] at hg
    cases hg

end

/-! ## Cleanups -/

namespace Cleanup

/-- A cleanup after a collection lists the members first. -/
theorem collection_eq (c : Collection) :
    collection c = .call (.list .gameServer c.metadata.ns c.memberSelector) fun answer =>
      match answer with
      | .error _ => .done ()
      | .ok found => deleteAll .gameServer ((found.filter fun g =>
          (Resource.metadata g).isOwnedBy (Resource.kind Collection) c.metadata.name).map
            Resource.key) := by
  refine congrArg (Program.call _) (funext fun answer => ?_)
  cases answer <;> rfl

theorem deleteAll_cons (kind : Kind) (key : Key) (rest : List Key) :
    deleteAll kind (key :: rest) = .call (.delete kind key) fun _ => deleteAll kind rest :=
  rfl

end Cleanup

/-- The request of a cleanup comes to what it is for. -/
def Request.Completes (w : World) : (request : Request) → request.Answer → Prop
  | .list _ _ _, .error _ => False
  | .delete kind key, .error _ => (w.stores kind).get? key = none
  | _, _ => True

namespace World

variable {w v : World} {key : Key}

/-- What belongs to a collection is listed with its members. -/
theorem belongingsIn_listed (hw : w.Recorded) (key : Key) :
    w.BelongingsIn key (((w.members key).filter fun g =>
      (Resource.metadata g).isOwnedBy (Resource.kind Collection) key.name).map Resource.key) := by
  intro k g hg hbelongs
  have hkey : Resource.key g = k := (hw .gameServer).sound.key_eq hg
  have hmember : g ∈ w.members key :=
    (mem_members (hw .gameServer).sound).2 ⟨hkey.symm ▸ hg, hbelongs.1⟩
  exact List.mem_map.2 ⟨g, List.mem_filter.2 ⟨hmember, hbelongs.2⟩, hkey⟩

theorem get?_of_completes (hw : w.Recorded) {kind : Kind} {k : Key}
    {answer : (Request.delete kind k).Answer} (hserves : w.Serves (.delete kind k) answer v)
    (hcompletes : (Request.delete kind k).Completes w answer) :
    (v.stores kind).get? k = none := by
  cases hserves with
  | harmless h =>
    cases answer with
    | ok _ => exact h.elim
    | error e => exact hcompletes
  | delete h =>
    obtain ⟨old, hold, rfl, rfl⟩ := Store.delete_eq_ok (hw kind).sound h
    rw [stores_commit, Store.get?_commit, Change.object, (hw kind).sound.key_eq hold, if_pos rfl]
    rfl

end World

/-! ## What is let happen -/

/-- Look-ups of collections are answered from this cache. -/
def Request.Sees (cache : Objects Collection) : (request : Request) → request.Answer → Prop
  | .cached .collection key, .ok found => found = cache.find? key
  | _, _ => True

/-- The duty is to clean up after this collection. -/
def Duty.IsReleaseOf (key : Key) (d : Duty) : Prop := ∃ c, d = .release c ∧ Resource.key c = key

namespace Crew

/-- Nobody but passes over the collection makes instances belong to it, and who cleans up after
it goes on until that is done. -/
def tended (key : Key) (cache : Objects Collection) : Regime where
  begins _ := True
  answers e d request answer := request.Sees cache answer ∧
    ((∃ asked, d = .ask asked) → ¬request.Endows e.world key) ∧
      (d.IsReleaseOf key → request.Completes e.world answer)
  quits d := ¬d.IsReleaseOf key

/-- Besides, no pass over the collection is under way when a cleanup after it lists the
members. -/
def orderly (key : Key) (cache : Objects Collection) : Regime where
  begins _ := True
  answers e d request answer := (tended key cache).answers e d request answer ∧
    (d.IsReleaseOf key → (∃ ns selector, request = .list .gameServer ns selector) →
      ∀ t ∈ e.tasks, ¬t.duty.IsPassOver key)
  quits d := ¬d.IsReleaseOf key

/-! ## Passes that have not found the collection -/

/-- The passes over the collection that are under way have not found it. -/
def Unaware (key : Key) (e : Crew) : Prop :=
  ∀ t ∈ e.tasks, t.duty.IsPassOver key → ∃ s : Notes, ¬s.Found key ∧ s.Sound e.world ∧
    t.left.Keeps t.duty.custody (fun _ _ => True) s

end Crew

theorem Notes.not_found_empty (key : Key) : ¬Notes.empty.Found key := by
  rintro ⟨c, hc, -⟩
  cases hc

/-- Who finds the collection finds it in the cache. -/
theorem Notes.find?_of_found {s : Notes} {key : Key} {cache : Objects Collection}
    {request : Request} {answer : request.Answer} (hnot : ¬s.Found key)
    (htells : request.Tells answer) (hsees : request.Sees cache answer)
    (h : (s.after request answer).Found key) : ∃ c, cache.find? key = some c := by
  obtain ⟨c, hc, rfl⟩ := h
  unfold after at hc
  split at hc
  · next k found =>
    rcases List.mem_append.1 hc with hc | hc
    · exact absurd ⟨c, hc, rfl⟩ hnot
    · obtain rfl : found = some c := Option.mem_toList.1 hc
      obtain rfl : Resource.key c = k := htells
      exact ⟨c, (show some c = _ from hsees).symm⟩
  all_goals exact absurd ⟨c, hc, rfl⟩ hnot

namespace Crew.Unaware

variable {key : Key} {e : Crew}

theorem of_idle (h : ∀ t ∈ e.tasks, ¬t.duty.IsPassOver key) : e.Unaware key :=
  fun t ht hpass => absurd hpass (h t ht)

/-- Who begins has found nothing. -/
theorem append (h : e.Unaware key) (duty : Duty) :
    Unaware key { e with tasks := e.tasks ++ [⟨duty, duty.program⟩] } := by
  intro t ht hpass
  rcases List.mem_append.1 ht with ht | ht
  · exact h t ht hpass
  · rw [List.mem_singleton.1 ht]
    exact ⟨.empty, Notes.not_found_empty key, Notes.sound_empty _, duty.keeps⟩

theorem leave (h : e.Unaware key) {before after : List Task} {task : Task}
    (htasks : e.tasks = before ++ task :: after) :
    Unaware key { e with tasks := before ++ after } :=
  fun t ht => h t (htasks ▸ mem_of_mem_others ht)

variable {before after : List Task} {duty : Duty} {request : Request}
  {next : request.Answer → Program Unit} {answer : request.Answer} {w : World}

/-- When a request is served the collection is in the cache, or goes on not to be found. -/
theorem serve (h : e.Unaware key) (hw : e.world.Recorded)
    (htasks : e.tasks = before ++ ⟨duty, .call request next⟩ :: after)
    (hserves : e.world.Serves request answer w) {cache : Objects Collection}
    (hsees : request.Sees cache answer) :
    (∃ c, cache.find? key = some c) ∨
      Unaware key ⟨w, before ++ ⟨duty, next answer⟩ :: after⟩ := by
  by_cases hcache : ∃ c, cache.find? key = some c
  · exact .inl hcache
  refine .inr fun t ht hpass => ?_
  rcases mem_replaced ht with rfl | ht
  · obtain ⟨s, hs, hsound, -, hnext⟩ := h ⟨duty, .call request next⟩ (by simp [htasks]) hpass
    have htells := hserves.tells hw
    refine ⟨s.after request answer, fun hafter => ?_, hsound.served hw hserves,
      hnext answer _ ⟨htells, rfl⟩⟩
    exact hcache (Notes.find?_of_found hs htells hsees hafter)
  · obtain ⟨s, hs, hsound, hkeeps⟩ := h t (htasks ▸ ht) hpass
    exact ⟨s, hs, hsound.mono hserves.logs, hkeeps⟩

/-- Nobody makes belongings of the collection then. -/
theorem belongingsIn (h : e.Unaware key) (hkept : custody.Kept e)
    (hmem : ⟨duty, .call request next⟩ ∈ e.tasks) (hserves : e.world.Serves request answer w)
    (hask : (∃ asked, duty = .ask asked) → ¬request.Endows e.world key) {keys : List Key}
    (hkeys : e.world.BelongingsIn key keys) : w.BelongingsIn key keys := by
  by_cases hpass : duty.IsPassOver key
  · obtain ⟨s, hs, hsound, hmay, -⟩ := h _ hmem hpass
    exact Duty.belongingsIn_of_may hkept.holds hsound (fun _ => hs) hask hmay hserves hkeys
  · obtain ⟨s, hsound, hmay, -⟩ := hkept.tasks _ hmem
    exact Duty.belongingsIn_of_may hkept.holds hsound (absurd · hpass) hask hmay hserves hkeys

end Crew.Unaware

/-! ## Households -/

namespace Household

/-- What belongs to the collection is not forgotten. -/
inductive Covered (key : Key) (h : Household) : Prop where
  | spared (hunaware : h.crew.Unaware key) (hnone : h.crew.world.BelongingsIn key [])
  | cached (c : Collection) (hc : h.informer.cache.find? key = some c)
  /-- A cleanup was called for. -/
  | due (c : Collection) (hkey : Resource.key c = key) (hc : c ∈ h.pending)
  /-- A cleanup has begun. -/
  | begun (c : Collection) (hkey : Resource.key c = key)
    (ht : ⟨.release c, Cleanup.collection c⟩ ∈ h.crew.tasks)
  /-- A cleanup is deleting all that is left. -/
  | deleting (c : Collection) (hkey : Resource.key c = key) (keys : List Key)
    (ht : ⟨.release c, Cleanup.deleteAll .gameServer keys⟩ ∈ h.crew.tasks)
    (hunaware : h.crew.Unaware key) (hkeys : h.crew.world.BelongingsIn key keys)

variable {key : Key} {h h' : Household} {crew : Crew}

theorem Covered.begin (hcovered : h.Covered key) (duty : Duty) :
    Covered key { h with
      crew := { h.crew with tasks := h.crew.tasks ++ [⟨duty, duty.program⟩] } } := by
  cases hcovered with
  | spared hunaware hnone => exact .spared (hunaware.append duty) hnone
  | cached c hc => exact .cached c hc
  | due c hkey hc => exact .due c hkey hc
  | begun c hkey ht => exact .begun c hkey (List.mem_append_left _ ht)
  | deleting c hkey keys ht hunaware hkeys =>
    exact .deleting c hkey keys (List.mem_append_left _ ht) (hunaware.append duty) hkeys

theorem Covered.leave (hcovered : h.Covered key) {before after : List Task} {task : Task}
    (htasks : h.crew.tasks = before ++ task :: after)
    (hleft : task.left = .done () ∨ ¬task.duty.IsReleaseOf key) :
    Covered key { h with crew := { h.crew with tasks := before ++ after } } := by
  cases hcovered with
  | spared hunaware hnone => exact .spared (hunaware.leave htasks) hnone
  | cached c hc => exact .cached c hc
  | due c hkey hc => exact .due c hkey hc
  | begun c hkey ht =>
    rw [htasks] at ht
    rcases eq_or_mem_of_mem ht with rfl | ht
    · rcases hleft with hdone | hother
      · rw [Cleanup.collection_eq] at hdone
        cases hdone
      · exact absurd ⟨c, rfl, hkey⟩ hother
    · exact .begun c hkey ht
  | deleting c hkey keys ht hunaware hkeys =>
    have hunaware' := hunaware.leave htasks
    rw [htasks] at ht
    rcases eq_or_mem_of_mem ht with rfl | ht
    · rcases hleft with hdone | hother
      · cases keys with
        | nil => exact .spared hunaware' hkeys
        | cons k rest => cases hdone
      · exact absurd ⟨c, rfl, hkey⟩ hother
    · exact .deleting c hkey keys ht hunaware' hkeys

section

variable {before after : List Task} {duty : Duty} {request : Request}
  {next : request.Answer → Program Unit} {answer : request.Answer} {w : World}

theorem Covered.serve (hcovered : h.Covered key) (hcustody : Crew.custody.Kept h.crew)
    (htasks : h.crew.tasks = before ++ ⟨duty, .call request next⟩ :: after)
    (hserves : h.crew.world.Serves request answer w)
    (hanswers : (Crew.orderly key h.informer.cache).answers h.crew duty request answer) :
    Covered key { h with crew := ⟨w, before ++ ⟨duty, next answer⟩ :: after⟩ } := by
  have hw : h.crew.world.Recorded := hcustody.holds
  obtain ⟨⟨hsees, hask, hcompletes⟩, hlone⟩ := hanswers
  have hmem : ⟨duty, .call request next⟩ ∈ h.crew.tasks := by simp [htasks]
  cases hcovered with
  | spared hunaware hnone =>
    rcases hunaware.serve hw htasks hserves hsees with ⟨c, hc⟩ | hunaware'
    · exact .cached c hc
    · exact .spared hunaware' (hunaware.belongingsIn hcustody hmem hserves hask hnone)
  | cached c hc => exact .cached c hc
  | due c hkey hc => exact .due c hkey hc
  | begun c hkey ht =>
    rw [htasks] at ht
    rcases mem_replaced ht with heq | ht
    · rw [Cleanup.collection_eq] at heq
      cases heq
      -- No pass is under way while the cleanup lists, so what it lists is all there will be.
      have hidle := hlone ⟨c, rfl, hkey⟩ ⟨_, _, rfl⟩
      cases hserves with
      | harmless hharmless =>
        cases answer with
        | ok found => exact hharmless.elim
        | error e => exact (hcompletes ⟨c, rfl, hkey⟩).elim
      | list =>
        refine .deleting c hkey _ (List.mem_append_right _ List.mem_cons_self)
          (.of_idle fun t ht => ?_) (hkey ▸ World.belongingsIn_listed hw (Resource.key c))
        rcases mem_replaced ht with rfl | ht
        · rintro ⟨_, ⟨⟩⟩
        · exact hidle t (htasks ▸ ht)
    · exact .begun c hkey ht
  | deleting c hkey keys ht hunaware hkeys =>
    rcases hunaware.serve hw htasks hserves hsees with ⟨c', hc'⟩ | hunaware'
    · exact .cached c' hc'
    have hkeys' := hunaware.belongingsIn hcustody hmem hserves hask hkeys
    rw [htasks] at ht
    rcases mem_replaced ht with heq | ht
    · cases keys with
      | nil => cases heq
      | cons k rest =>
        rw [Cleanup.deleteAll_cons] at heq
        cases heq
        refine .deleting c hkey rest (List.mem_append_right _ List.mem_cons_self) hunaware' ?_
        intro k' g hg hbelongs
        rcases List.mem_cons.1 (hkeys' k' g hg hbelongs) with rfl | hrest
        · rw [World.get?_of_completes hw hserves (hcompletes ⟨c, rfl, hkey⟩)] at hg
          cases hg
        · exact hrest
    · exact .deleting c hkey keys ht hunaware' hkeys'

end

theorem Covered.inform (hcovered : h.Covered key) (hkept : h.Kept) {m : Mirror Collection}
    {told : List (Change Collection)} (hmove : h.mirror.Move told m) :
    (h.informed m told).Covered key := by
  cases hcovered with
  | spared hunaware hnone => exact .spared hunaware hnone
  | cached c hc =>
    cases hfind : m.shelf.informer.cache.find? key with
    | some c' => exact .cached c' hfind
    | none =>
      obtain ⟨gone, htold, hkey⟩ := hmove.deleted hkept.coherent hkept.keyed hc hfind
      have hdeparted : gone ∈ told.filterMap Change.departed? :=
        List.mem_filterMap.2 ⟨_, htold, rfl⟩
      exact .due gone hkey (List.mem_append_right _ hdeparted)
  | due c hkey hc => exact .due c hkey (List.mem_append_left _ hc)
  | begun c hkey ht => exact .begun c hkey ht
  | deleting c hkey keys ht hunaware hkeys => exact .deleting c hkey keys ht hunaware hkeys

theorem Covered.release (hcovered : h.Covered key) {before after : List Collection}
    {c : Collection} (hpending : h.pending = before ++ c :: after) :
    Covered key { h with
      crew := { h.crew with tasks := h.crew.tasks ++ [⟨.release c, Cleanup.collection c⟩] }
      pending := before ++ after } := by
  cases hcovered.begin (.release c) with
  | spared hunaware hnone => exact .spared hunaware hnone
  | cached c hc => exact .cached c hc
  | due c' hkey hc' =>
    rcases eq_or_mem_of_mem (hpending ▸ hc') with rfl | hc'
    · exact .begun c' hkey (List.mem_append_right _ (List.mem_singleton_self _))
    · exact .due c' hkey hc'
  | begun c hkey ht => exact .begun c hkey ht
  | deleting c hkey keys ht hunaware hkeys => exact .deleting c hkey keys ht hunaware hkeys

/-! ## Runs -/

/-- What a run keeps. -/
structure Guarded (key : Key) (h : Household) : Prop where
  kept : h.Kept
  custody : Crew.custody.Kept h.crew
  covered : h.Covered key

theorem Guarded.step (hh : h.Guarded key) (hstep : Step (Crew.orderly key) h h') :
    h'.Guarded key := by
  obtain ⟨hkept, hcustody, hcovered⟩ := hh
  refine ⟨hkept.step hstep, ?_, ?_⟩
  · cases hstep with
    | work crew hstep => exact hcustody.step hstep.anything
    | inform m told hmove => exact hcustody
    | release before after c hpending => exact hcustody.step (.begin _ (.release c) trivial)
  · cases hstep with
    | work crew hstep =>
      cases hstep with
      | begin duty hbegins => exact hcovered.begin duty
      | serve before after duty request next answer w htasks hserves hanswers =>
        exact hcovered.serve hcustody htasks hserves hanswers
      | leave before after task htasks hleft => exact hcovered.leave htasks hleft
    | inform m told hmove => exact hcovered.inform hkept hmove
    | release before after c hpending => exact hcovered.release hpending

theorem Guarded.run (hh : h.Guarded key) (hrun : Run (Crew.orderly key) h h') :
    h'.Guarded key := by
  induction hrun with
  | refl => exact hh
  | tail _ hstep ih => exact ih.step hstep

/-- The crew is idle, the informer has read everything, and instances belong to the collection
only if it is there. -/
structure Ready (key : Key) (h : Household) : Prop where
  recorded : h.crew.world.Recorded
  tasks : h.crew.tasks = []
  informer : h.informer = ⟨(h.crew.world.stores .collection).objects, true,
    .following (h.crew.world.logs .collection).length⟩
  errand : h.errand = none
  listed : h.listed = none
  belongings : ∀ k g, (h.crew.world.stores .gameServer).get? k = some g → g.Belongs key →
    ((h.crew.world.stores .collection).get? key).isSome

theorem Ready.kept (hready : h.Ready key) : h.Kept := by
  have hrecords := hready.recorded .collection
  refine ⟨hready.recorded,
    ⟨hrecords, fun _ cursor hphase => ?_, fun e he => ?_, fun _ hl => ?_⟩, ?_⟩
  · change h.informer.phase = .following cursor at hphase
    change Within (h.crew.world.logs .collection) cursor h.informer.cache
    rw [hready.informer] at hphase ⊢
    cases hphase
    exact ⟨le_rfl, fun k => ⟨_, le_rfl, le_rfl, by rw [hrecords.past_eq]; rfl⟩⟩
  · cases hready.errand.symm.trans he
  · cases hready.listed.symm.trans hl
  · rw [hready.informer]
    exact fun k c hc => hrecords.sound.key_eq hc

theorem Ready.guarded (hready : h.Ready key) : h.Guarded key := by
  refine ⟨hready.kept, ⟨hready.recorded, fun t ht => ?_⟩, ?_⟩
  · rw [hready.tasks] at ht
    cases ht
  · cases hc : (h.crew.world.stores .collection).get? key with
    | some c =>
      refine .cached c ?_
      rw [hready.informer]
      exact hc
    | none =>
      refine .spared (.of_idle fun t ht => ?_) fun k g hg hbelongs => ?_
      · rw [hready.tasks] at ht
        cases ht
      · have hsome := hready.belongings k g hg hbelongs
        rw [hc] at hsome
        cases hsome

/-- Once a collection is gone and the household is quiet, nothing belongs to it, if no pass over it
was under way when a cleanup after it listed the members. -/
theorem none_left_of_run {start h : Household} {key : Key} (hstart : start.Ready key)
    (hrun : Run (Crew.orderly key) start h) (hquiet : h.Quiet)
    (hgone : (h.crew.world.stores .collection).get? key = none) :
    ∀ k g, (h.crew.world.stores .gameServer).get? k = some g → ¬g.Belongs key := by
  intro k g hg hbelongs
  obtain ⟨hkept, -, hcovered⟩ := hstart.guarded.run hrun
  cases hcovered with
  | spared hunaware hnone => cases hnone k g hg hbelongs
  | cached c hc =>
    rw [hkept.find?_of_quiet hquiet, hgone] at hc
    cases hc
  | due c hkey hc =>
    rw [hquiet.pending] at hc
    cases hc
  | begun c hkey ht =>
    rw [hquiet.tasks] at ht
    cases ht
  | deleting c hkey keys ht hunaware hkeys =>
    rw [hquiet.tasks] at ht
    cases ht

/-! ## Two deletions -/

/-- A collection that asks for one replica. -/
def arena : Collection :=
  Store.newborn .empty Sample.birth (Sample.collection "arena" 1 .remove 1 none)

def arenaMember : GameServer := Store.newborn .empty Sample.birth (arena.newMember "arena-a")

/-- The collection and some instances are stored, and the informer has read that. -/
def arenaHousehold (instances : List GameServer) : Household :=
  let world := instances.foldl (fun w g => w.changed .gameServer (.added g))
    ((World.blank (Sample.registry [])).changed .collection (.added arena))
  ⟨⟨world, []⟩, 1024, ⟨Table.insert .empty arenaKey arena, true, .following 1⟩, none, none, []⟩

theorem ready_arenaHousehold : (arenaHousehold [arenaMember]).Ready arenaKey where
  recorded := by
    refine World.Recorded.changed (World.Recorded.changed (World.recorded_blank _) ?_) ?_
    all_goals exact ⟨rfl, by rintro _ ⟨⟩; rfl⟩
  tasks := rfl
  informer := rfl
  errand := rfl
  listed := rfl
  belongings _ _ _ _ := rfl

/-- A collection is deleted with its one member. -/
theorem none_left_arena :
    ∃ h, Run (Crew.orderly arenaKey) (arenaHousehold [arenaMember]) h ∧
      (arenaMember.Belongs arenaKey ∧ h.Quiet ∧
        (h.crew.world.stores .collection).get? arenaKey = none) ∧
      ∀ k g, (h.crew.world.stores .gameServer).get? k = some g → ¬g.Belongs arenaKey := by
  have hstart : Run (Crew.orderly arenaKey) (arenaHousehold [arenaMember])
      (arenaHousehold [arenaMember]) := .refl
  have hasked := hstart.tail (.work _ _ (.begin _ (.ask (.delete .collection arenaKey)) trivial))
  have hother {request} : ¬(Duty.ask request).IsReleaseOf arenaKey := by
    rintro ⟨_, ⟨⟩, -⟩
  have hdeleted := (hasked.tail (.work _ _ (.serve _ [] [] _ _ _ _ _ rfl (.delete rfl)
    ⟨⟨trivial, fun _ h => h, fun h => absurd h hother⟩, fun h => absurd h hother⟩))).tail
    (.work _ _ (.leave _ [] [] _ rfl (.inl rfl)))
  have htold := (hdeleted.tail (.inform _ _ _ (.read _ rfl rfl))).tail (.release _ [] [] arena rfl)
  have hlone : ∀ t ∈ [(⟨.release arena, Cleanup.collection arena⟩ : Task)],
      ¬t.duty.IsPassOver arenaKey := by
    intro t ht
    rw [List.mem_singleton.1 ht]
    rintro ⟨_, ⟨⟩⟩
  have hlisted := htold.tail (.work _ _ (.serve _ [] [] _ _ _ _ _ rfl .list
    ⟨⟨trivial, fun _ h => h, fun _ => trivial⟩, fun _ _ => hlone⟩))
  have hcleaned := (hlisted.tail (.work _ _ (.serve _ [] [] _ _ _ _ _ rfl (.delete rfl)
    ⟨⟨trivial, fun _ h => h, fun _ => trivial⟩, fun _ h => by obtain ⟨_, _, ⟨⟩⟩ := h⟩))).tail
    (.work _ _ (.leave _ [] [] _ rfl (.inl rfl)))
  refine ⟨_, hcleaned, ⟨⟨by decide +kernel, by decide +kernel⟩, ?quiet, rfl⟩,
    none_left_of_run ready_arenaHousehold hcleaned ?quiet rfl⟩
  exact ⟨rfl, rfl, rfl, 2, rfl, by decide +kernel⟩

/-- A pass over a collection has read it and got a port for a member. Then the collection is deleted
and a cleanup after it lists no members, and then the pass makes the member. -/
theorem left_behind :
    ∃ h, Run (Crew.tended arenaKey) (arenaHousehold []) h ∧ h.Quiet ∧
      (h.crew.world.stores .collection).get? arenaKey = none ∧
      ∃ k g, (h.crew.world.stores .gameServer).get? k = some g ∧ g.Belongs arenaKey := by
  have hstart : Run (Crew.tended arenaKey) (arenaHousehold []) (arenaHousehold []) := .refl
  have hasked {request} : ¬(Duty.ask request).IsReleaseOf arenaKey := by
    rintro ⟨_, ⟨⟩, -⟩
  have hpass {context k} : ¬(Duty.pass context .collection k).IsReleaseOf arenaKey := by
    rintro ⟨_, ⟨⟩, -⟩
  have hown {context k} : ¬∃ asked, Duty.pass context .collection k = .ask asked := by
    rintro ⟨_, ⟨⟩⟩
  have hlet {cache e context k request answer} (hsees : Request.Sees cache request answer) :
      (Crew.tended arenaKey cache).answers e (.pass context .collection k) request answer :=
    ⟨hsees, (absurd · hown), (absurd · hpass)⟩
  have hbegun := hstart.tail (.work _ _ (.begin _ (.pass default .collection arenaKey) trivial))
  have hfound : ∀ a, some arena = some a →
      Resource.key a = arenaKey ∧ (arenaHousehold []).crew.world.Past .collection a := by
    rintro a ⟨⟩
    exact ⟨rfl, 1, by decide, rfl⟩
  have hread := ((hbegun.tail
    (.work _ _ (.serve _ [] [] _ _ _ _ _ rfl (.cached hfound) (hlet rfl)))).tail
    (.work _ _ (.serve _ [] [] _ _ _ _ _ rfl .list (hlet trivial)))).tail
    (.work _ _ (.serve _ [] [] _ _ _ _ _ rfl .get (hlet trivial)))
  have hsummed := hread.tail
    (.work _ _ (.serve _ [] [] _ _ _ _ _ rfl (.update rfl) (hlet trivial)))
  have hallocated := (hsummed.tail
    (.work _ _ (.serve _ [] [] _ (.suffix _) _ "b" _ rfl (.harmless trivial) (hlet trivial)))).tail
    (.work _ _ (.serve _ [] [] _ _ _ _ _ rfl .allocate (hlet trivial)))
  have hdeleted := ((hallocated.tail
    (.work _ _ (.begin _ (.ask (.delete .collection arenaKey)) trivial))).tail
    (.work _ _ (.serve _ [_] [] _ _ _ _ _ rfl (.delete rfl)
      ⟨trivial, fun _ h => h, (absurd · hasked)⟩))).tail
    (.work _ _ (.leave _ [_] [] _ rfl (.inl rfl)))
  have htold := ((hdeleted.tail (.inform _ _ _ (.read _ rfl rfl))).tail
    (.inform _ _ _ (.read _ rfl rfl))).tail (.release _ [] [] _ rfl)
  have hlisted := (htold.tail (.work _ _ (.serve _ [_] [] _ _ _ _ _ rfl .list
    ⟨trivial, fun _ h => h, fun _ => trivial⟩))).tail
    (.work _ _ (.leave _ [_] [] _ rfl (.inl rfl)))
  have hcreated := (hlisted.tail (.work _ _ (.serve _ [] [] _ (.create .gameServer _) _ _ _ rfl
    (@World.Serves.create _ .gameServer Sample.birth _ _ _ rfl) (hlet trivial)))).tail
    (.work _ _ (.serve _ [] [] _ (.record _) _ () _ rfl (.harmless trivial) (hlet trivial)))
  have hdone := hcreated.tail (.work _ _ (.leave _ [] [] _ rfl (.inl rfl)))
  refine ⟨_, hdone, ⟨rfl, rfl, rfl, 3, rfl, by decide +kernel⟩, rfl, ⟨Sample.ns, "arena-b"⟩, _, rfl,
    by decide +kernel, by decide +kernel⟩

end Household

end GameFleet
