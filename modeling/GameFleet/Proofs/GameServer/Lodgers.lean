import GameFleet.Proofs.Collection.Orphans
import GameFleet.Proofs.GameServer.Triggers
import GameFleet.Proofs.Plane.Station

/-!
# Pods of instances that are gone

A pod is made by a pass that has found its instance in the cache, and carries the label of the
instance and is owned by it (`Pod.Belongs`). When the informer tells that an instance was deleted,
a cleanup gives its host ports back, lists the pods that are bound to it, once, and deletes
those.

A pass over the instance that is under way then may still make the pod after that, and nobody
deletes it : later passes do not find the instance any more (`Station.pod_stranded`). If no pass
is under way whenever a cleanup lists the pods, every pod is bound to an instance that is stored,
when nothing is left to do (`Station.stored_of_bound`). Until then the instance is in the cache,
or a cleanup is due, or one is deleting the pods that are left (`Station.Lodged`).
-/

namespace GameFleet

open Program (Ends)

/-! ## Pods and their instances -/

namespace Pod

/-- The pod carries the label of the instance with this key, and is owned by it. -/
def Belongs (key : Key) (p : Pod) : Prop :=
  p.IsBound key ∧ p.metadata.isOwnedBy (Resource.kind GameServer) key.name = true

theorem IsBound.key_eq {key key' : Key} {p : Pod} (h : p.IsBound key) (h' : p.IsBound key') :
    key = key' := by
  obtain ⟨ns, name⟩ := key
  obtain ⟨hns, hname⟩ := h
  rw [h'.1] at hns
  rw [h'.2] at hname
  cases hns
  cases hname
  rfl

/-- The pod of an instance is owned by the instance. -/
theorem belongs_ofGameServer (g : GameServer) (callbacks : Callbacks) :
    (ofGameServer g callbacks).Belongs (Resource.key g) := by
  refine ⟨⟨rfl, ?_⟩, by simp [ofGameServer, Meta.isOwnedBy, Resource.ownerRef]; rfl⟩
  simp [ofGameServer, Meta.label?, Meta.withLabel, Table.find?_insert, Labels.gameServerName,
    Labels.isGameServer]
  rfl

end Pod

namespace World

/-- Pods are owned by the instances that they are bound to. -/
def Owned (w : World) : Prop :=
  ∀ k p, (w.stores .pod).get? k = some p → ∀ key, p.IsBound key → p.Belongs key

/-- Whatever pod is bound to the instance is under one of these keys. -/
def BoundIn (w : World) (key : Key) (keys : List Key) : Prop :=
  ∀ k p, (w.stores .pod).get? k = some p → p.IsBound key → k ∈ keys

variable {w : World} {key : Key}

theorem mem_boundPods (hs : (w.stores .pod).Sound) {p : Pod} :
    p ∈ w.boundPods key ↔ (w.stores .pod).get? (Resource.key p) = some p ∧ p.IsBound key := by
  rw [boundPods_eq, List.mem_filterMap, ← Store.mem_values hs]
  constructor
  · rintro ⟨q, hq, heq⟩
    split at heq
    · next hbound => exact Option.some.inj heq ▸ ⟨hq, hbound⟩
    · cases heq
  · exact fun ⟨hp, hbound⟩ => ⟨p, hp, if_pos hbound⟩

/-- What a cleanup lists and finds to be owned by the instance is all that is bound to it. -/
theorem boundIn_listed (hw : w.Recorded) (howned : w.Owned) (key : Key) :
    w.BoundIn key (((w.boundPods key).filter fun p =>
      (Resource.metadata p).isOwnedBy (Resource.kind GameServer) key.name).map Resource.key) := by
  intro k p hp hbound
  have hkey : Resource.key p = k := (hw .pod).sound.key_eq hp
  have hmem : p ∈ w.boundPods key := (mem_boundPods (hw .pod).sound).2 ⟨hkey.symm ▸ hp, hbound⟩
  exact List.mem_map.2 ⟨p, List.mem_filter.2 ⟨hmem, (howned k p hp key hbound).2⟩, hkey⟩

end World

/-! ## Who makes pods -/

/-- The request looks up an instance, and finds it. -/
def Request.finds : (request : Request) → request.Answer → Bool
  | .cached .gameServer _, .ok (some _) => true
  | _, _ => false

namespace Duty

/-- The duty is a pass over this instance. -/
def IsPassAt (key : Key) (d : Duty) : Prop := ∃ context, d = .pass context .gameServer key

/-- The duty is to clean up after this instance. -/
def IsCleanUpOf (key : Key) (d : Duty) : Prop := ∃ g, d = .cleanUp g ∧ Resource.key g = key

/-- The duties of those who have to do with pods. -/
def IsHosting (d : Duty) : Prop :=
  (∃ key, d.IsPassAt key) ∨ (∃ g, d = .cleanUp g) ∨ ∃ request, d = .ask request

/-- What a task may ask for, if it has found its instance in the cache or not : a pass looks up only
its own instance, and makes only pods of it, and only when it has found it. -/
def MayHost (d : Duty) (found : Bool) : Request → Prop
  | .cached .gameServer k => ∀ key, d.IsPassAt key → key = k
  | .create .pod p =>
    (found = true ∧ ∃ key, d.IsPassAt key ∧ p.Belongs key) ∨ d = .ask (.create .pod p)
  | .update .pod p => d = .ask (.update .pod p)
  | _ => True

def hosting (d : Duty) : Contract Bool :=
  ⟨d.MayHost, fun found request answer found' =>
    request.Tells answer ∧ found' = (found || request.finds answer)⟩

end Duty

namespace Pass

variable {α : Type} {found : Bool} {context : PassContext} {key : Key} {g : GameServer}

/-- A pass that asks for what a pass over this instance may. -/
def Hosts (context : PassContext) (key : Key) (found : Bool) (p : Pass α) : Prop :=
  p.run.Keeps (Duty.pass context .gameServer key).hosting (Ends (fun _ _ => True) fun _ _ => True)
    found

theorem hosts_record {type : EventType} {kind : Kind} {object : Key} {reason : Reason}
    {message : String} : Hosts context key found (record type kind object reason message) :=
  ⟨trivial, fun _ _ _ => trivial⟩

theorem hosts_forgive (forgiven : Bool) (e : PassError) :
    Hosts context key found (if forgiven then return () else throw e) := by
  split <;> trivial

theorem hosts_deleteDrained {k : Key} : Hosts context key found (deleteDrained k) := by
  refine ⟨trivial, fun answer t _ => ?_⟩
  cases answer with
  | ok u => exact hosts_record
  | error cause => exact hosts_forgive cause.isNotFound _

/-- An instance with host ports is the same one. -/
theorem keeps_assignHostPorts (hkey : Resource.key g = key) :
    (assignHostPorts g).run.Keeps (Duty.pass context .gameServer key).hosting
      (Ends (fun g' t => Resource.key g' = key ∧ t = found) fun _ _ => True) found := by
  have hports (owner : Key) : (Duty.pass context .gameServer key).hosting.Ignores found
      (.allocate owner) := ⟨trivial, fun _ _ h => h.2.trans (Bool.or_false _)⟩
  have hback (owner : Key) (ports : List Port) :
      (Duty.pass context .gameServer key).hosting.Ignores found (.release owner ports) :=
    ⟨trivial, fun _ _ h => h.2.trans (Bool.or_false _)⟩
  refine (keeps_allocate (hports _) (hback _) (fun _ => trivial) _ _).bindExcept
    fun taken t ht => ?_
  subst ht
  refine ⟨trivial, ?_⟩
  rintro answer u ⟨htells, hu⟩
  obtain rfl : u = t := hu.trans (Bool.or_false _)
  cases answer with
  | ok updated => exact ⟨(show Resource.key updated = Resource.key _ from htells).trans hkey, rfl⟩
  | error cause => exact keeps_release_throw (hback _ _) trivial

theorem hosts_createPod (hkey : Resource.key g = key) :
    Hosts context key true (createPod context g) := by
  unfold createPod
  extract_lets rest
  have hrest (g' : GameServer) (hkey' : Resource.key g' = key) :
      Hosts context key true (rest g') := by
    refine ⟨.inl ⟨rfl, key, ⟨context, rfl⟩, hkey' ▸ Pod.belongs_ofGameServer g' _⟩,
      fun answer t _ => ?_⟩
    cases answer with
    | ok pod => exact hosts_record
    | error cause => exact hosts_forgive cause.isAlreadyExists _
  split
  · refine (keeps_assignHostPorts hkey).bindExcept ?_
    rintro g' t ⟨hkey', rfl⟩
    exact hrest g' hkey'
  · exact hrest g hkey

theorem hosts_cached_node {k : Key} : Hosts context key found (cached .node k) :=
  ⟨trivial, fun answer _ _ => by cases answer <;> trivial⟩

theorem hosts_observationOf (pod : Pod) : Hosts context key found (observationOf pod) := by
  unfold observationOf
  split
  · trivial
  · next node _ =>
    have haddress : Hosts context key found (addressOf node) := by
      refine hosts_cached_node.bindExcept fun answer t _ => ?_
      cases answer with
      | none => trivial
      | some found =>
        simp only
        split <;> trivial
    exact haddress.bindExcept fun _ _ _ => trivial

theorem hosts_observe (retry : Retry) (o : Observation) (k : Key) :
    Hosts context key found (access (.modify retry .gameServer k o.change)) := by
  suffices hchanges : Access.Changes (Duty.pass context .gameServer key).hosting .gameServer k
      o.change (fun _ => True) (fun _ _ => True) (Ends (fun _ _ => True) fun _ _ => True) from
    keeps_access (hchanges.keeps retry trivial)
  constructor
  case get => exact fun _ => trivial
  case missing => exact fun _ _ => trivial
  case found => exact fun _ _ => trivial
  case failed => exact fun _ _ => ⟨trivial, fun _ => trivial⟩
  case left => exact fun _ _ => trivial
  case update => exact fun _ _ => trivial
  case written => exact fun _ _ _ => trivial
  case refused => exact fun _ _ _ => ⟨trivial, fun _ => trivial⟩
  case pause => exact fun _ => trivial
  case paused => exact fun _ _ => trivial

theorem hosts_observePod (g : GameServer) (pod : Pod) :
    Hosts context key found (observePod context g pod) := by
  refine (hosts_observationOf pod).bindExcept fun o t _ => ?_
  split
  · trivial
  · exact (hosts_observe context.retry o _).bindExcept fun _ _ _ => trivial

/-- A pass that finds its instance knows that. -/
theorem keeps_look : (cached .gameServer key).run.Keeps
    (Duty.pass context .gameServer key).hosting
    (Ends (fun g? t => ∀ g, g? = some g → Resource.key g = key ∧ t = true) fun _ _ => True)
    found := by
  refine ⟨?_, ?_⟩
  · rintro _ ⟨_, ⟨⟩⟩
    rfl
  rintro answer t ⟨htells, ht⟩
  cases answer with
  | error e => trivial
  | ok g? =>
    rintro g rfl
    exact ⟨htells, ht.trans (Bool.or_true _)⟩

theorem keeps_pods {ns : String} {selector : Selector} :
    (cachedList .pod ns selector).run.Keeps (Duty.pass context .gameServer key).hosting
      (Ends (fun _ t => t = found) fun _ _ => True) found := by
  refine ⟨trivial, fun answer t ht => ?_⟩
  cases answer with
  | ok pods => exact ht.2.trans (Bool.or_false _)
  | error e => trivial

/-- A pass makes only pods of its instance, and only when it has found it. -/
theorem hosts_gameServer : Hosts context key found (gameServer context key) := by
  refine keeps_look.bindExcept fun g? t hfound => ?_
  cases g? with
  | none => trivial
  | some g =>
    obtain ⟨hkey, rfl⟩ := hfound g rfl
    simp only
    split
    · trivial
    split
    · exact hosts_deleteDrained
    refine keeps_pods.bindExcept ?_
    rintro pods t rfl
    split
    · exact hosts_createPod hkey
    · exact hosts_observePod g _

end Pass

namespace Cleanup

variable {d : Duty} {found : Bool}

/-- The pods that are bound to an instance and owned by it are deleted. -/
def pods (g : GameServer) : Program Unit :=
  deleteOwned .pod g.metadata.ns (.ofLabel Labels.gameServerName g.metadata.name) .gameServer
    g.metadata.name

theorem gameServer_eq (g : GameServer) :
    gameServer g = .call (.release (Resource.key g) g.exposedHostPorts) fun _ => pods g :=
  rfl

theorem pods_eq (g : GameServer) :
    pods g = .call (.list .pod g.metadata.ns (.ofLabel Labels.gameServerName g.metadata.name))
      fun answer =>
        match answer with
        | .error _ => .done ()
        | .ok found => deleteAll .pod ((found.filter fun p =>
            (Resource.metadata p).isOwnedBy (Resource.kind GameServer) g.metadata.name).map
              Resource.key) := by
  refine congrArg (Program.call _) (funext fun answer => ?_)
  cases answer <;> rfl

theorem hosting_deleteAll (keys : List Key) :
    (deleteAll .pod keys).Keeps d.hosting (fun _ _ => True) found := by
  induction keys generalizing found with
  | nil => trivial
  | cons key rest ih => exact ⟨trivial, fun _ _ _ => ih⟩

theorem hosting_pods (g : GameServer) : (pods g).Keeps d.hosting (fun _ _ => True) found := by
  rw [pods_eq]
  refine ⟨trivial, fun answer t _ => ?_⟩
  cases answer with
  | error e => trivial
  | ok found => exact hosting_deleteAll _

end Cleanup

/-- Who has to do with pods begins with nothing found. -/
theorem Duty.IsHosting.keeps {d : Duty} (h : d.IsHosting) :
    d.program.Keeps d.hosting (fun _ _ => True) false := by
  rcases h with ⟨key, context, rfl⟩ | ⟨g, rfl⟩ | ⟨request, rfl⟩
  · have hpass : Pass.Hosts context key false (Pass.gameServer context key) := Pass.hosts_gameServer
    exact hpass.bind fun _ _ _ => trivial
  · exact ⟨trivial, fun _ _ _ => Cleanup.hosting_pods g⟩
  · refine ⟨?_, fun _ _ _ => trivial⟩
    cases request with
    | cached kind k => cases kind <;> first | trivial | (rintro _ ⟨_, ⟨⟩⟩)
    | create kind a => cases kind <;> first | exact .inr rfl | trivial
    | update kind a => cases kind <;> first | rfl | trivial
    | _ => trivial

/-! ## What is let happen -/

namespace Request

/-- Look-ups of instances are answered from this cache. -/
def Sights (cache : Objects GameServer) : (request : Request) → request.Answer → Prop
  | .cached .gameServer k, .ok found => found = cache.find? k
  | _, _ => True

/-- The request makes no pod, and leaves pods the labels and owners that they have. -/
def SparesPods (w : World) : Request → Prop
  | .create .pod _ => False
  | .update .pod p => ∀ old, (w.stores .pod).get? (Resource.key p) = some old →
      p.metadata = old.metadata
  | _ => True

/-- What is found is in the cache. -/
theorem find?_of_finds {cache : Objects GameServer} {d : Duty} {key : Key} {request : Request}
    {answer : request.Answer} (hmay : d.MayHost false request) (hpass : d.IsPassAt key)
    (hsights : request.Sights cache answer) (h : request.finds answer = true) :
    ∃ g, cache.find? key = some g := by
  unfold finds at h
  split at h
  · next k g =>
    obtain rfl : key = k := hmay key hpass
    exact ⟨g, Eq.symm hsights⟩
  · cases h

end Request

/-- Only passes over instances make pods, and pods stay with the instances that they are made
for. -/
def Regime.hosting : Regime where
  begins := Duty.IsHosting
  answers e d request _ := (∃ asked, d = .ask asked) → request.SparesPods e.world
  quits _ := True

section

variable {w v : World} {d : Duty} {found : Bool} {request : Request} {answer : request.Answer}

/-- A pod is what it was, or has been made by a pass that has found its instance. -/
theorem Duty.pod_of_may (hw : w.Recorded) (hmay : d.MayHost found request)
    (hspares : (∃ asked, d = .ask asked) → request.SparesPods w)
    (hserves : w.Serves request answer v) {k : Key} {p : Pod}
    (hp : (v.stores .pod).get? k = some p) :
    (∃ old, (w.stores .pod).get? k = some old ∧
      ∀ key, (p.IsBound key → old.IsBound key) ∧ (old.Belongs key → p.Belongs key)) ∨
    (found = true ∧ ∃ key, d.IsPassAt key ∧ p.Belongs key) := by
  rcases World.stored_after hw .pod k hserves with hsame | ⟨a, birth, rfl, -, -, hv⟩ |
    ⟨a, old, rfl, hkey, hold, -, hv⟩ | ⟨-, hv⟩
  · exact .inl ⟨p, hsame ▸ hp, fun _ => ⟨id, id⟩⟩
  · obtain rfl := Option.some.inj (hp.symm.trans hv)
    rcases hmay with hmade | hasked
    · exact .inr hmade
    · exact (hspares ⟨_, hasked⟩).elim
  · obtain rfl := Option.some.inj (hp.symm.trans hv)
    have hmeta : a.metadata = old.metadata := hspares ⟨_, hmay⟩ old (hkey ▸ hold)
    refine .inl ⟨old, hold, fun key => ⟨fun (h : Pod.IsBound key a) => ?_, fun h => ?_⟩⟩
    · rwa [Pod.IsBound, hmeta] at h
    · change Pod.Belongs key a
      rwa [Pod.Belongs, Pod.IsBound, hmeta]
  · cases hp.symm.trans hv

theorem World.Owned.served (h : w.Owned) (hw : w.Recorded) (hmay : d.MayHost found request)
    (hspares : (∃ asked, d = .ask asked) → request.SparesPods w)
    (hserves : w.Serves request answer v) : v.Owned := by
  intro k p hp key hbound
  rcases Duty.pod_of_may hw hmay hspares hserves hp with ⟨old, hold, hsame⟩ | ⟨-, key', -, hbelongs⟩
  · exact (hsame key).2 (h k old hold key ((hsame key).1 hbound))
  · exact hbound.key_eq hbelongs.1 ▸ hbelongs

theorem World.BoundIn.served {key : Key} {keys : List Key} (h : w.BoundIn key keys)
    (hw : w.Recorded) (hmay : d.MayHost found request)
    (hspares : (∃ asked, d = .ask asked) → request.SparesPods w)
    (hserves : w.Serves request answer v) (hpass : d.IsPassAt key → found = false) :
    v.BoundIn key keys := by
  intro k p hp hbound
  rcases Duty.pod_of_may hw hmay hspares hserves hp with ⟨old, hold, hsame⟩ |
    ⟨hfound, key', hpass', hbelongs⟩
  · exact h k old hold ((hsame key).1 hbound)
  · obtain rfl := hbound.key_eq hbelongs.1
    rw [hpass hpass'] at hfound
    cases hfound

end

namespace Crew

/-- Tasks know whether they have found their instances, and pods are owned by the instances that
they are bound to. -/
def hosting : Discipline .hosting where
  Knowledge := Bool
  contract := Duty.hosting
  sound _ _ _ := True
  holds w := w.Recorded ∧ w.Owned
  begins _ h := ⟨false, trivial, h.keeps⟩
  served hw _ hmay hserves hspares :=
    ⟨⟨hserves.recorded hw.1, hw.2.served hw.1 hmay hspares hserves⟩, _, ⟨hserves.tells hw.1, rfl⟩,
      trivial⟩
  others _ _ _ := trivial

/-- Who cleans up after the instance goes on until that is done. -/
def lodging (key : Key) (cache : Objects (Kind.Obj .gameServer)) : Regime where
  begins := Duty.IsHosting
  answers e d request answer := request.Sights cache answer ∧
    ((∃ asked, d = .ask asked) → request.SparesPods e.world) ∧
      (d.IsCleanUpOf key → request.Completes e.world answer)
  quits d := ¬d.IsCleanUpOf key

/-- Besides, no pass over the instance is under way when a cleanup after it lists the pods. -/
def singly (key : Key) (cache : Objects (Kind.Obj .gameServer)) : Regime where
  begins := Duty.IsHosting
  answers e d request answer := (lodging key cache).answers e d request answer ∧
    (d.IsCleanUpOf key → (∃ ns selector, request = .list .pod ns selector) →
      ∀ t ∈ e.tasks, ¬t.duty.IsPassAt key)
  quits d := ¬d.IsCleanUpOf key

theorem Step.hosting {key : Key} {cache : Objects GameServer} {e f : Crew}
    (h : Step (singly key cache) e f) : Step .hosting e f :=
  h.mono (fun _ h => h) (fun _ _ _ _ h => h.1.2.1) fun _ _ => trivial

/-- The passes over the instance that are under way have not found it. -/
def Blind (key : Key) (e : Crew) : Prop :=
  ∀ t ∈ e.tasks, t.duty.IsPassAt key → t.left.Keeps t.duty.hosting (fun _ _ => True) false

namespace Blind

variable {key : Key} {e : Crew}

theorem of_idle (h : ∀ t ∈ e.tasks, ¬t.duty.IsPassAt key) : e.Blind key :=
  fun t ht hpass => absurd hpass (h t ht)

/-- Who begins has found nothing. -/
theorem append (h : e.Blind key) {duty : Duty} (hduty : duty.IsHosting) :
    Blind key { e with tasks := e.tasks ++ [⟨duty, duty.program⟩] } := by
  intro t ht hpass
  rcases List.mem_append.1 ht with ht | ht
  · exact h t ht hpass
  · rw [List.mem_singleton.1 ht]
    exact hduty.keeps

theorem leave (h : e.Blind key) {before after : List Task} {task : Task}
    (htasks : e.tasks = before ++ task :: after) :
    Blind key { e with tasks := before ++ after } :=
  fun t ht => h t (htasks ▸ mem_of_mem_others ht)

variable {before after : List Task} {duty : Duty} {request : Request}
  {next : request.Answer → Program Unit} {answer : request.Answer} {w : World}

/-- When a request is served the instance is in the cache, or goes on not to be found. -/
theorem serve (h : e.Blind key) (hw : e.world.Recorded)
    (htasks : e.tasks = before ++ ⟨duty, .call request next⟩ :: after)
    (hserves : e.world.Serves request answer w) {cache : Objects GameServer}
    (hsights : request.Sights cache answer) :
    (∃ g, cache.find? key = some g) ∨ Blind key ⟨w, before ++ ⟨duty, next answer⟩ :: after⟩ := by
  by_cases hcache : ∃ g, cache.find? key = some g
  · exact .inl hcache
  refine .inr fun t ht hpass => ?_
  rcases mem_replaced ht with rfl | ht
  · obtain ⟨hmay, hnext⟩ := h ⟨duty, .call request next⟩ (by simp [htasks]) hpass
    refine hnext answer false ⟨hserves.tells hw, ?_⟩
    cases hfinds : request.finds answer with
    | false => rfl
    | true => exact absurd (Request.find?_of_finds hmay hpass hsights hfinds) hcache
  · exact h t (htasks ▸ ht) hpass

/-- Nobody makes pods of the instance then. -/
theorem boundIn (h : e.Blind key) (hkept : hosting.Kept e)
    (hmem : ⟨duty, .call request next⟩ ∈ e.tasks) (hserves : e.world.Serves request answer w)
    (hspares : (∃ asked, duty = .ask asked) → request.SparesPods e.world) {keys : List Key}
    (hkeys : e.world.BoundIn key keys) : w.BoundIn key keys := by
  have hw : e.world.Recorded := hkept.holds.1
  by_cases hpass : duty.IsPassAt key
  · obtain ⟨hmay, -⟩ := h _ hmem hpass
    exact hkeys.served hw hmay hspares hserves fun _ => rfl
  · obtain ⟨found, -, hmay, -⟩ := hkept.tasks _ hmem
    exact hkeys.served hw hmay hspares hserves (absurd · hpass)

end Blind

end Crew

/-! ## Stations -/

namespace Station

/-- The pods of an instance are not forgotten. -/
inductive Lodged (key : Key) (s : Station .gameServer) : Prop where
  | spared (hblind : s.crew.Blind key) (hnone : s.crew.world.BoundIn key [])
  | cached (g : GameServer) (hg : s.informer.cache.find? key = some g)
  /-- A cleanup was called for. -/
  | due (g : GameServer) (hkey : Resource.key g = key) (hg : .cleanUp g ∈ s.pending)
  /-- A cleanup has begun, and has not listed the pods yet. -/
  | begun (g : GameServer) (hkey : Resource.key g = key) (left : Program Unit)
    (hleft : left = Cleanup.gameServer g ∨ left = Cleanup.pods g)
    (ht : ⟨.cleanUp g, left⟩ ∈ s.crew.tasks)
  /-- A cleanup is deleting all that is left. -/
  | deleting (g : GameServer) (hkey : Resource.key g = key) (keys : List Key)
    (ht : ⟨.cleanUp g, Cleanup.deleteAll .pod keys⟩ ∈ s.crew.tasks)
    (hblind : s.crew.Blind key) (hkeys : s.crew.world.BoundIn key keys)

namespace Lodged

variable {key : Key} {s : Station .gameServer}

theorem begin (hlodged : s.Lodged key) {duty : Duty} (hduty : duty.IsHosting) :
    Lodged key { s with
      crew := { s.crew with tasks := s.crew.tasks ++ [⟨duty, duty.program⟩] } } := by
  cases hlodged with
  | spared hblind hnone => exact .spared (hblind.append hduty) hnone
  | cached g hg => exact .cached g hg
  | due g hkey hg => exact .due g hkey hg
  | begun g hkey left hleft ht => exact .begun g hkey left hleft (List.mem_append_left _ ht)
  | deleting g hkey keys ht hblind hkeys =>
    exact .deleting g hkey keys (List.mem_append_left _ ht) (hblind.append hduty) hkeys

theorem leave (hlodged : s.Lodged key) {before after : List Task} {task : Task}
    (htasks : s.crew.tasks = before ++ task :: after)
    (hleft : task.left = .done () ∨ ¬task.duty.IsCleanUpOf key) :
    Lodged key { s with crew := { s.crew with tasks := before ++ after } } := by
  cases hlodged with
  | spared hblind hnone => exact .spared (hblind.leave htasks) hnone
  | cached g hg => exact .cached g hg
  | due g hkey hg => exact .due g hkey hg
  | begun g hkey left hbegun ht =>
    rw [htasks] at ht
    rcases eq_or_mem_of_mem ht with rfl | ht
    · rcases hleft with hdone | hother
      · rcases hbegun with rfl | rfl
        · cases hdone
        · rw [Cleanup.pods_eq] at hdone
          cases hdone
      · exact absurd ⟨g, rfl, hkey⟩ hother
    · exact .begun g hkey left hbegun ht
  | deleting g hkey keys ht hblind hkeys =>
    have hblind' := hblind.leave htasks
    rw [htasks] at ht
    rcases eq_or_mem_of_mem ht with rfl | ht
    · rcases hleft with hdone | hother
      · cases keys with
        | nil => exact .spared hblind' hkeys
        | cons k rest => cases hdone
      · exact absurd ⟨g, rfl, hkey⟩ hother
    · exact .deleting g hkey keys ht hblind' hkeys

section

variable {before after : List Task} {duty : Duty} {request : Request}
  {next : request.Answer → Program Unit} {answer : request.Answer} {w : World}

/-- A cleanup lists the pods that are bound to the instance when no pass over it is under way, so
these are all that there will be. -/
theorem listed (hcrew : Crew.hosting.Kept s.crew) {g : GameServer} (hkey : Resource.key g = key)
    {next : (Request.list .pod g.metadata.ns
      (.ofLabel Labels.gameServerName g.metadata.name)).Answer → Program Unit}
    {answer : (Request.list .pod g.metadata.ns
      (.ofLabel Labels.gameServerName g.metadata.name)).Answer}
    (hpods : Cleanup.pods g = .call _ next)
    (htasks : s.crew.tasks = before ++ ⟨.cleanUp g, .call _ next⟩ :: after)
    (hserves : s.crew.world.Serves _ answer w)
    (hanswers : (Crew.singly key s.informer.cache).answers s.crew (.cleanUp g) _ answer) :
    Lodged key { s with crew := ⟨w, before ++ ⟨.cleanUp g, next answer⟩ :: after⟩ } := by
  obtain ⟨⟨-, -, hcompletes⟩, hsingly⟩ := hanswers
  have hidle := hsingly ⟨g, rfl, hkey⟩ ⟨_, _, rfl⟩
  rw [Cleanup.pods_eq] at hpods
  cases hpods
  cases hserves with
  | harmless hharmless =>
    cases answer with
    | ok found => exact hharmless.elim
    | error e => exact (hcompletes ⟨g, rfl, hkey⟩).elim
  | list =>
    obtain rfl := hkey
    refine .deleting g rfl _ (List.mem_append_right _ List.mem_cons_self)
      (.of_idle fun t ht => ?_)
      (World.boundIn_listed hcrew.holds.1 hcrew.holds.2 (Resource.key g))
    rcases mem_replaced ht with rfl | ht
    · rintro ⟨_, ⟨⟩⟩
    · exact hidle t (htasks ▸ ht)

theorem serve (hlodged : s.Lodged key) (hcrew : Crew.hosting.Kept s.crew)
    (htasks : s.crew.tasks = before ++ ⟨duty, .call request next⟩ :: after)
    (hserves : s.crew.world.Serves request answer w)
    (hanswers : (Crew.singly key s.informer.cache).answers s.crew duty request answer) :
    Lodged key { s with crew := ⟨w, before ++ ⟨duty, next answer⟩ :: after⟩ } := by
  have hw : s.crew.world.Recorded := hcrew.holds.1
  obtain ⟨⟨hsights, hspares, hcompletes⟩, -⟩ := id hanswers
  have hmem : ⟨duty, .call request next⟩ ∈ s.crew.tasks := by simp [htasks]
  cases hlodged with
  | spared hblind hnone =>
    rcases hblind.serve hw htasks hserves hsights with ⟨g, hg⟩ | hblind'
    · exact .cached g hg
    · exact .spared hblind' (hblind.boundIn hcrew hmem hserves hspares hnone)
  | cached g hg => exact .cached g hg
  | due g hkey hg => exact .due g hkey hg
  | begun g hkey left hleft ht =>
    rw [htasks] at ht
    rcases mem_replaced ht with heq | ht
    · obtain ⟨rfl, hprogram⟩ := Task.mk.inj heq
      rcases hleft with rfl | rfl
      · -- The host ports are given back first.
        rw [Cleanup.gameServer_eq] at hprogram
        cases hprogram
        exact .begun g hkey _ (.inr rfl) (List.mem_append_right _ List.mem_cons_self)
      · have hpods := hprogram
        rw [Cleanup.pods_eq] at hprogram
        cases hprogram
        exact listed hcrew hkey hpods htasks hserves hanswers
    · exact .begun g hkey left hleft ht
  | deleting g hkey keys ht hblind hkeys =>
    rcases hblind.serve hw htasks hserves hsights with ⟨g', hg'⟩ | hblind'
    · exact .cached g' hg'
    have hkeys' := hblind.boundIn hcrew hmem hserves hspares hkeys
    rw [htasks] at ht
    rcases mem_replaced ht with heq | ht
    · cases keys with
      | nil => cases heq
      | cons k rest =>
        rw [Cleanup.deleteAll_cons] at heq
        cases heq
        refine .deleting g hkey rest (List.mem_append_right _ List.mem_cons_self) hblind' ?_
        intro k' p hp hbound
        rcases List.mem_cons.1 (hkeys' k' p hp hbound) with rfl | hrest
        · rw [World.get?_of_completes hw hserves (hcompletes ⟨g, rfl, hkey⟩)] at hp
          cases hp
        · exact hrest
    · exact .deleting g hkey keys ht hblind' hkeys'

end

theorem inform (hlodged : s.Lodged key) (hkept : s.Kept) {m : Mirror GameServer}
    {told : List (Change GameServer)} (hmove : s.mirror.Move told m) :
    (s.informed m told).Lodged key := by
  cases hlodged with
  | spared hblind hnone => exact .spared hblind hnone
  | cached g hg =>
    cases hfind : m.shelf.informer.cache.find? key with
    | some g' => exact .cached g' hfind
    | none =>
      obtain ⟨gone, htold, hkey⟩ := hmove.deleted hkept.coherent hkept.keyed hg hfind
      have hcalled : .cleanUp gone ∈ told.filterMap (Duty.after? .gameServer) :=
        List.mem_filterMap.2 ⟨_, htold, rfl⟩
      exact .due gone hkey (List.mem_append_right _ hcalled)
  | due g hkey hg => exact .due g hkey (List.mem_append_left _ hg)
  | begun g hkey left hleft ht => exact .begun g hkey left hleft ht
  | deleting g hkey keys ht hblind hkeys => exact .deleting g hkey keys ht hblind hkeys

theorem attend (hlodged : s.Lodged key) {before after : List Duty} {duty : Duty}
    (hduty : duty.IsHosting) (hpending : s.pending = before ++ duty :: after) :
    Lodged key { s with
      crew := { s.crew with tasks := s.crew.tasks ++ [⟨duty, duty.program⟩] }
      pending := before ++ after } := by
  cases hlodged.begin hduty with
  | spared hblind hnone => exact .spared hblind hnone
  | cached g hg => exact .cached g hg
  | due g hkey hg =>
    rcases eq_or_mem_of_mem (hpending ▸ hg) with rfl | hg
    · exact .begun g hkey _ (.inl rfl) (List.mem_append_right _ (List.mem_singleton_self _))
    · exact .due g hkey hg
  | begun g hkey left hleft ht => exact .begun g hkey left hleft ht
  | deleting g hkey keys ht hblind hkeys => exact .deleting g hkey keys ht hblind hkeys

end Lodged

/-! ## Runs -/

/-- What a run keeps. -/
structure Guarded (key : Key) (s : Station .gameServer) : Prop where
  kept : s.Kept
  crew : Crew.hosting.Kept s.crew
  pending : ∀ d ∈ s.pending, d.IsHosting
  lodged : s.Lodged key

variable {key : Key} {s s' : Station .gameServer}

/-- The cleanups that an informer of instances calls for have to do with pods. -/
theorem isHosting_of_after? {c : Change GameServer} {d : Duty}
    (h : Duty.after? .gameServer c = some d) : d.IsHosting := by
  cases c with
  | deleted g =>
    cases h
    exact .inr (.inl ⟨g, rfl⟩)
  | _ => cases h

theorem Guarded.step (hs : s.Guarded key) (hstep : Step (Crew.singly key) s s') :
    s'.Guarded key := by
  obtain ⟨hkept, hcrew, hpending, hlodged⟩ := hs
  have hkept' := hkept.step hstep
  cases hstep with
  | work crew hstep =>
    refine ⟨hkept', hcrew.step hstep.hosting, hpending, ?_⟩
    cases hstep with
    | begin duty hduty => exact hlodged.begin hduty
    | serve before after duty request next answer w htasks hserves hanswers =>
      exact hlodged.serve hcrew htasks hserves hanswers
    | leave before after task htasks hleft => exact hlodged.leave htasks hleft
  | inform m told hmove =>
    refine ⟨hkept', hcrew, fun d hd => ?_, hlodged.inform hkept hmove⟩
    rcases List.mem_append.1 hd with hd | hd
    · exact hpending d hd
    · obtain ⟨c, -, hc⟩ := List.mem_filterMap.1 hd
      exact isHosting_of_after? hc
  | attend before after duty hduties =>
    have hduty := hpending duty (by simp [hduties])
    refine ⟨hkept', hcrew.step (.begin _ duty hduty), fun d hd => ?_, hlodged.attend hduty hduties⟩
    exact hpending d (hduties ▸ mem_of_mem_others hd)

theorem Guarded.run (hs : s.Guarded key) (hrun : Run (Crew.singly key) s s') :
    s'.Guarded key := by
  induction hrun with
  | refl => exact hs
  | tail _ hstep ih => exact ih.step hstep

/-- Nothing is under way, there are no pods, and logs and caches are what they should be. -/
structure Vacant (s : Station .gameServer) : Prop where
  kept : s.Kept
  tasks : s.crew.tasks = []
  pending : s.pending = []
  pods : ∀ k, (s.crew.world.stores .pod).get? k = none

theorem Vacant.guarded (hs : s.Vacant) (key : Key) : s.Guarded key := by
  have hnone {k : Key} {p : Pod} (hp : (s.crew.world.stores .pod).get? k = some p) : False := by
    rw [hs.pods k] at hp
    cases hp
  have hidle {t : Task} (ht : t ∈ s.crew.tasks) : False := by
    rw [hs.tasks] at ht
    cases ht
  refine ⟨hs.kept, ⟨⟨hs.kept.recorded, fun k p hp => (hnone hp).elim⟩,
    fun t ht => (hidle ht).elim⟩, fun d hd => ?_, .spared (.of_idle fun t ht => (hidle ht).elim)
    fun k p hp => (hnone hp).elim⟩
  rw [hs.pending] at hd
  cases hd

/-- However passes, deletions, cleanups and the informer fall among each other, every pod that is
stored when the station is quiet is bound to an instance that is stored, if no pass over that
instance was under way when a cleanup after it listed the pods. -/
theorem stored_of_bound {start s : Station .gameServer} {key : Key} (hstart : start.Vacant)
    (hrun : Run (Crew.singly key) start s) (hquiet : s.Quiet) {k : Key} {p : Pod}
    (hp : (s.crew.world.stores .pod).get? k = some p) (hbound : p.IsBound key) :
    ∃ g, (s.crew.world.stores .gameServer).get? key = some g := by
  obtain ⟨hkept, -, -, hlodged⟩ := (hstart.guarded key).run hrun
  cases hlodged with
  | spared hblind hnone => cases hnone k p hp hbound
  | cached g hg => exact ⟨g, hkept.find?_of_quiet hquiet key ▸ hg⟩
  | due g hkey hg =>
    rw [hquiet.pending] at hg
    cases hg
  | begun g hkey left hleft ht =>
    rw [hquiet.tasks] at ht
    cases ht
  | deleting g hkey keys ht hblind hkeys =>
    rw [hquiet.tasks] at ht
    cases ht

/-! ## Two passes over an instance -/

/-- An instance that has no host port yet. -/
def guest : GameServer := Store.newborn .empty Sample.birth (Sample.gameServer "guest")

def guestKey : Key := ⟨Sample.ns, "guest"⟩

/-- The instance is stored, and the informer has read that. -/
def vacancy : Station .gameServer where
  crew := ⟨(World.blank (Sample.registry [])).changed .gameServer (.added guest), []⟩
  room := 1024
  informer := ⟨Table.insert .empty guestKey guest, true, .following 1⟩
  errand := none
  listed := none
  pending := []

theorem vacant_vacancy : vacancy.Vacant where
  kept := kept_of_caughtUp
    ((World.recorded_blank _).changed (Store.admits_of_create (Store.create_eq rfl))) rfl rfl rfl
  tasks := rfl
  pending := rfl
  pods _ := rfl

theorem guest_found (a : GameServer) (h : some guest = some a) :
    Resource.key a = guestKey ∧ vacancy.crew.world.Past .gameServer a := by
  cases h
  exact ⟨rfl, 1, by decide, rfl⟩

/-- What a pass over the instance is answered. -/
theorem lets_pass {cache : Objects (Kind.Obj .gameServer)} {e : Crew} {context : PassContext}
    {request : Request} {answer : request.Answer} (hsights : request.Sights cache answer) :
    (Crew.lodging guestKey cache).answers e (.pass context .gameServer guestKey) request
      answer := by
  refine ⟨hsights, ?_, ?_⟩
  · rintro ⟨_, ⟨⟩⟩
  · rintro ⟨_, ⟨⟩, -⟩

/-- A pass gives the instance a host port and makes its pod. -/
theorem stored_of_bound_guest :
    ∃ s, Run (Crew.singly guestKey) vacancy s ∧
      (s.Quiet ∧ ∃ k p, (s.crew.world.stores .pod).get? k = some p ∧ p.IsBound guestKey) ∧
      ∃ g, (s.crew.world.stores .gameServer).get? guestKey = some g := by
  have hstart : Run (Crew.singly guestKey) vacancy vacancy := .refl
  have hnone {w : World} : ∀ a ∈ ([] : List Pod), w.Past .pod a := fun a ha => by cases ha
  have hlet {cache e context request answer} (hsights : Request.Sights cache request answer) :
      (Crew.singly guestKey cache).answers e (.pass context .gameServer guestKey) request answer :=
    ⟨lets_pass hsights, by rintro ⟨_, ⟨⟩, -⟩⟩
  have hread := ((hstart.tail (.work _ _
    (.begin _ (.pass default .gameServer guestKey) (.inl ⟨guestKey, default, rfl⟩)))).tail
    (.work _ _ (.serve _ [] [] _ _ _ _ _ rfl (.cached guest_found) (hlet rfl)))).tail
    (.work _ _ (.serve _ [] [] _ _ _ _ _ rfl (.cachedList hnone) (hlet trivial)))
  have hassigned := (hread.tail
    (.work _ _ (.serve _ [] [] _ _ _ _ _ rfl .allocate (hlet trivial)))).tail
    (.work _ _ (.serve _ [] [] _ _ _ _ _ rfl (.update rfl) (hlet trivial)))
  have hmade := ((hassigned.tail (.work _ _ (.serve _ [] [] _ (.create .pod _) _ _ _ rfl
    (@World.Serves.create _ .pod Sample.birth _ _ _ rfl) (hlet trivial)))).tail
    (.work _ _ (.serve _ [] [] _ (.record _) _ () _ rfl (.harmless trivial) (hlet trivial)))).tail
    (.work _ _ (.leave _ [] [] _ rfl (.inl rfl)))
  have htold := hmade.tail (.inform _ _ _ (.read _ rfl rfl))
  have hbound : Pod.IsBound guestKey (Pod.ofGameServer guest default) :=
    (Pod.belongs_ofGameServer guest _).1
  refine ⟨_, htold, ⟨?quiet, guestKey, _, rfl, hbound⟩,
    stored_of_bound vacant_vacancy htold ?quiet (k := guestKey) rfl hbound⟩
  exact ⟨rfl, rfl, rfl, 2, rfl, by decide +kernel⟩

/-- A pass has read the instance and given it a host port. Then the instance is deleted, and a
cleanup after it lists no pods, and then the pass makes the pod. -/
theorem pod_stranded :
    ∃ s, Run (Crew.lodging guestKey) vacancy s ∧ s.Quiet ∧
      (s.crew.world.stores .gameServer).get? guestKey = none ∧
      ∃ k p, (s.crew.world.stores .pod).get? k = some p ∧ p.IsBound guestKey := by
  have hstart : Run (Crew.lodging guestKey) vacancy vacancy := .refl
  have hnone {w : World} : ∀ a ∈ ([] : List Pod), w.Past .pod a := fun a ha => by cases ha
  have hread := ((hstart.tail (.work _ _
    (.begin _ (.pass default .gameServer guestKey) (.inl ⟨guestKey, default, rfl⟩)))).tail
    (.work _ _ (.serve _ [] [] _ _ _ _ _ rfl (.cached guest_found) (lets_pass rfl)))).tail
    (.work _ _ (.serve _ [] [] _ _ _ _ _ rfl (.cachedList hnone) (lets_pass trivial)))
  have hassigned := (hread.tail
    (.work _ _ (.serve _ [] [] _ _ _ _ _ rfl .allocate (lets_pass trivial)))).tail
    (.work _ _ (.serve _ [] [] _ _ _ _ _ rfl (.update rfl) (lets_pass trivial)))
  have hasked {request} : ¬(Duty.ask request).IsCleanUpOf guestKey := by
    rintro ⟨_, ⟨⟩, -⟩
  have hdeleted := ((hassigned.tail (.work _ _
    (.begin _ (.ask (.delete .gameServer guestKey)) (.inr (.inr ⟨_, rfl⟩))))).tail
    (.work _ _ (.serve _ [_] [] _ _ _ _ _ rfl (.delete rfl)
      ⟨trivial, fun _ => trivial, (absurd · hasked)⟩))).tail
    (.work _ _ (.leave _ [_] [] _ rfl (.inl rfl)))
  have htold := ((hdeleted.tail (.inform _ _ _ (.read _ rfl rfl))).tail
    (.inform _ _ _ (.read _ rfl rfl))).tail (.attend _ [] [] _ rfl)
  have hown {g : GameServer} : ¬∃ asked, Duty.cleanUp g = .ask asked := by
    rintro ⟨_, ⟨⟩⟩
  have hlisted := ((htold.tail (.work _ _ (.serve _ [_] [] _ _ _ _ _ rfl .release
    ⟨trivial, (absurd · hown), fun _ => trivial⟩))).tail
    (.work _ _ (.serve _ [_] [] _ _ _ _ _ rfl .list
      ⟨trivial, (absurd · hown), fun _ => trivial⟩))).tail
    (.work _ _ (.leave _ [_] [] _ rfl (.inl rfl)))
  have hmade := ((hlisted.tail (.work _ _ (.serve _ [] [] _ (.create .pod _) _ _ _ rfl
    (@World.Serves.create _ .pod Sample.birth _ _ _ rfl) (lets_pass trivial)))).tail
    (.work _ _ (.serve _ [] [] _ (.record _) _ () _ rfl (.harmless trivial)
      (lets_pass trivial)))).tail
    (.work _ _ (.leave _ [] [] _ rfl (.inl rfl)))
  have hbound : Pod.IsBound guestKey (Pod.ofGameServer guest default) :=
    (Pod.belongs_ofGameServer guest _).1
  exact ⟨_, hmade, ⟨rfl, rfl, rfl, 3, rfl, by decide +kernel⟩, rfl, guestKey, _, rfl, hbound⟩

end Station

end GameFleet
