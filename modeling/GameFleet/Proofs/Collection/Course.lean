import GameFleet.Proofs.Pass.Deeds

/-!
# The course of a pass over a collection

The `Course` of a pass is what it was shown and what it has done so far, and `Course.May` says
which requests it makes then : it makes members only as far as the members that it has listed and
those that it has made are fewer than the replicas asked for, deals with members that were listed
as failed, and writes the collection as it was read last, with the failures added up that it has
dealt with. `Course.keeps_collection` says that every pass does, and what it has added up when it
ends.
-/

namespace GameFleet

/-- What a pass over a collection was shown, and what it has done. -/
structure Course where
  /-- The members that it has listed. -/
  listed : Option (List GameServer)
  /-- The collection as it was read last. -/
  read : Option Collection
  /-- The instance that was read last. -/
  server : Option GameServer
  /-- How many members it has made. -/
  made : Nat
  /-- How many of those listed as failed it has detached or deleted. -/
  handled : Nat
  /-- How many of those listed as failed were no members any more when it has read them. -/
  strays : Nat
  /-- By how much it has raised the count of failures. -/
  raised : Int

namespace Course

def start : Course := ⟨none, none, none, 0, 0, 0, 0⟩

/-- The keys of the instances that were listed as failed. -/
def failed (s : Course) : List Key :=
  ((s.listed.getD []).filter fun g => g.status.health = .failed).map Resource.key

/-- The instance was listed as failed, and is no member of the collection. -/
def IsStray (key : Key) (s : Course) (g : GameServer) : Prop :=
  Resource.key g ∈ s.failed ∧ g.collection? ≠ some key.name

instance (key : Key) (s : Course) (g : GameServer) : Decidable (s.IsStray key g) :=
  inferInstanceAs (Decidable (_ ∧ _))

/-- One more of those listed as failed is dealt with, if it is one. -/
def handle (s : Course) (k : Key) : Course :=
  if k ∈ s.failed then { s with handled := s.handled + 1 } else s

/-- Dealing with an instance changes nothing but the count. -/
theorem handle_eq (s : Course) (k : Key) : ∃ n, s.handle k = { s with handled := n } := by
  unfold handle
  split
  · exact ⟨_, rfl⟩
  · exact ⟨_, rfl⟩

/-- The course after an exchange. -/
def after (key : Key) (s : Course) : Exchange → Course
  | ⟨.list .gameServer _ _, .ok found⟩ => { s with listed := some found }
  | ⟨.get .collection _, .ok found⟩ => { s with read := found }
  | ⟨.get .gameServer _, .ok none⟩ => { s with server := none }
  | ⟨.get .gameServer _, .ok (some g)⟩ =>
    { s with server := some g, strays := s.strays + if s.IsStray key g then 1 else 0 }
  | ⟨.create .gameServer _, .ok _⟩ => { s with made := s.made + 1 }
  | ⟨.update .gameServer g, .ok _⟩ => s.handle (Resource.key g)
  | ⟨.delete .gameServer k, .ok _⟩ => s.handle k
  | ⟨.update .collection c, .ok _⟩ =>
    { s with raised := s.raised + ((c.status.timesFailed.toNat : Int) -
        s.read.elim 0 (·.status.timesFailed.toNat)) }
  | _ => s

/-- The course of a pass with these exchanges. -/
def of (key : Key) (past : List Exchange) : Course := past.foldl (after key) start

/-- How the collection may be written : its status is summed up, or it comes to need
intervention, or the failures are added up. -/
def Writes (s : Course) (old c : Collection) : Prop :=
  (Pass.Summary.of (s.listed.getD [])).change old = some c ∨ Pass.intervene old = some c ∨
    c = Pass.countFailures (s.handled + s.strays) old

theorem Writes.metadata {s : Course} {old c : Collection} (h : s.Writes old c) :
    c.metadata = old.metadata := by
  rcases h with h | h | rfl
  · exact (Pass.Summary.change_keeps h).1
  · exact (Pass.intervene_keeps h).1
  · rfl

/-- What a pass asks for. -/
def May (key : Key) (s : Course) : Request → Prop
  | .list .gameServer ns selector =>
    ns = key.ns ∧ selector = .ofLabel Labels.collectionName key.name
  | .get .collection k => k = key
  | .create .gameServer g => g.IsMember key ∧ s.failed = [] ∧ ∃ c found, s.read = some c ∧
      s.listed = some found ∧ found.length + s.made < c.spec.replicas.toNat
  | .update .gameServer g => s.read.isSome ∧ ∃ old, s.server = some old ∧
      (Resource.key old ∈ s.failed ∧ Pass.detach key.name old = some g ∨
        s.failed = [] ∧ Pass.detachMarked key.name old = some g)
  | .delete .gameServer k => s.read.isSome ∧ k ∈ s.failed
  | .update .collection c => Resource.key c = key ∧ ∃ old, s.read = some old ∧ s.Writes old c
  | .create _ _ => False
  | .update _ _ => False
  | .delete _ _ => False
  | _ => True

def contract (key : Key) : Contract Course :=
  .noting (after key) (May key) fun _ x => x.Possible

/-- A pass is over that has done what it had to : the count of failures is as it was and the pass
has dealt with none, or has not found the collection ; or the failures that it has dealt with were
added up. -/
def Concluded (s : Course) : Prop :=
  s.raised = 0 ∧ (s.handled + s.strays = 0 ∨ s.read = none) ∨
    ∃ old, s.read = some old ∧ s.raised =
      ((Pass.countFailures (s.handled + s.strays) old).status.timesFailed.toNat : Int) -
        old.status.timesFailed.toNat

end Course

namespace Course

open Program (Ends)

variable {key : Key} {context : PassContext} {retry : Retry} {s t : Course}

/-! ## Rules -/

theorem keeps_ask {request : Request} {error : PassError → Course → Prop}
    (h : s.May key request) :
    (Pass.ask request).run.Keeps (contract key) (Ends (fun answer t =>
      Exchange.Possible ⟨request, answer⟩ ∧ t = s.after key ⟨request, answer⟩) error) s :=
  ⟨h, fun _ _ ht => ht⟩

theorem ignores_record (event : Event) : (contract key).Ignores s (.record event) :=
  ⟨trivial, fun _ _ h => h.2⟩

theorem keeps_record {type : EventType} {kind : Kind} {object : Key} {reason : Reason}
    {message : String} {error : PassError → Course → Prop} (hs : s.Concluded) :
    (Pass.record type kind object reason message).run.Keeps (contract key)
      (Ends (fun _ t => t.Concluded) error) s :=
  (Pass.keeps_ignored (ignores_record _)).mono fun r t ht => by
    cases r with
    | ok _ => exact ht ▸ hs
    | error e => exact ht

theorem ignores_pick (total count : Nat) : (contract key).Ignores s (.pick total count) :=
  ⟨trivial, fun _ _ h => h.2⟩

theorem ignores_suffix (length : Nat) : (contract key).Ignores s (.suffix length) :=
  ⟨trivial, fun _ _ h => h.2⟩

theorem ignores_allocate (owner : Key) : (contract key).Ignores s (.allocate owner) :=
  ⟨trivial, fun _ _ h => h.2⟩

theorem ignores_release (owner : Key) (ports : List Port) :
    (contract key).Ignores s (.release owner ports) :=
  ⟨trivial, fun _ _ h => h.2⟩

/-- The collection is changed as it may be written, from a course in which `Q` holds whatever of
it was read. -/
theorem keeps_modify {Q : Course → Prop} {change : Collection → Option Collection}
    (hread : ∀ s c, Q s → Q { s with read := c }) (hraised : ∀ s, Q s → s.raised = 0)
    (hchange : ∀ s a b, Q s → change a = some b → Resource.key b = Resource.key a ∧ s.Writes a b)
    (hs : Q s) :
    (Pass.access (.modify retry .collection key change)).run.Keeps (contract key)
      (Ends (fun r t => (r = none → Q t ∧ t.read = none) ∧
        ∀ c, r = some c → Resource.key c = key ∧ ∃ u a, Q u ∧ u.read = some a ∧
          (change a = none ∧ c = a ∧ t = u ∨ ∃ b, change a = some b ∧ c.spec = b.spec ∧
            t = { u with raised := (b.status.timesFailed.toNat : Int) -
              a.status.timesFailed.toNat })) fun _ t => t.raised = 0) s := by
  suffices hchanges : Access.Changes (contract key) .collection key change Q
      (fun a t => Q t ∧ t.read = some a ∧ Resource.key a = key) _ from
    Pass.keeps_access (hchanges.keeps retry hs)
  constructor
  case get => exact fun _ => rfl
  case missing =>
    rintro u _ hu ⟨-, rfl⟩
    exact ⟨fun _ => ⟨hread u none hu, rfl⟩, fun c hc => by cases hc⟩
  case found =>
    rintro u a _ hu ⟨hpossible, rfl⟩
    exact ⟨hread u (some a) hu, rfl, hpossible.tells⟩
  case failed =>
    rintro u e _ hu ⟨-, rfl⟩
    exact ⟨hraised _ hu, fun _ => hu⟩
  case left =>
    rintro a u ⟨hu, hget, hkey⟩ hnone
    refine ⟨fun h => (by cases h), fun c hc => ?_⟩
    obtain rfl := Option.some.inj hc
    exact ⟨hkey, u, a, hu, hget, .inl ⟨hnone, rfl, rfl⟩⟩
  case update =>
    rintro a b u ⟨hu, hget, hkey⟩ hb
    obtain ⟨hsame, hwrites⟩ := hchange u a b hu hb
    exact ⟨hsame.trans hkey, a, hget, hwrites⟩
  case written =>
    rintro a b u c _ ⟨hu, hget, hkey⟩ hb ⟨hpossible, rfl⟩
    refine ⟨fun h => (by cases h), fun c' hc' => ?_⟩
    obtain rfl := Option.some.inj hc'
    refine ⟨hpossible.tells.trans ((hchange u a b hu hb).1.trans hkey), u, a, hu, hget, .inr ?_⟩
    obtain ⟨store, old, rfl⟩ := hpossible.updated
    refine ⟨b, hb, rfl, ?_⟩
    simp [after, hget, hraised u hu]
  case refused =>
    rintro a b u e _ ⟨hu, -, -⟩ - ⟨-, rfl⟩
    exact ⟨hraised _ hu, fun _ => hu⟩
  case pause => exact fun _ => trivial
  case paused =>
    rintro u failures _ hu ⟨-, rfl⟩
    exact hu

/-- The count of failures is left as it is. -/
theorem keeps_modify_status {Q : Course → Prop} {change : Collection → Option Collection}
    (hread : ∀ s c, Q s → Q { s with read := c }) (hraised : ∀ s, Q s → s.raised = 0)
    (hchange : ∀ s a b, Q s → change a = some b → b.metadata = a.metadata ∧ b.spec = a.spec ∧
      b.status.timesFailed = a.status.timesFailed ∧ s.Writes a b) (hs : Q s) :
    (Pass.access (.modify retry .collection key change)).run.Keeps (contract key)
      (Ends (fun r t => Q t ∧ ∀ c, r = some c → Resource.key c = key ∧
        ∃ a, t.read = some a ∧ c.spec = a.spec) fun _ t => t.raised = 0) s := by
  refine (keeps_modify hread hraised (fun u a b hu hb => ?_) hs).mono fun r t hr => ?_
  · obtain ⟨hmeta, -, -, hwrites⟩ := hchange u a b hu hb
    exact ⟨congrArg Meta.key hmeta, hwrites⟩
  · rcases r with e | _ | c
    · exact hr
    · exact ⟨(hr.1 rfl).1, fun c hc => by cases hc⟩
    · obtain ⟨hkey, u, a, hu, hget, ⟨-, rfl, rfl⟩ | ⟨b, hb, hspec, rfl⟩⟩ := hr.2 c rfl
      · refine ⟨hu, fun c' hc' => ?_⟩
        obtain rfl := Option.some.inj hc'
        exact ⟨hkey, c, hget, rfl⟩
      · obtain ⟨-, hspec', htimes, -⟩ := hchange u a b hu hb
        have hsame : { u with raised := (b.status.timesFailed.toNat : Int) -
            a.status.timesFailed.toNat } = u := by
          rw [htimes, Int.sub_self, ← hraised u hu]
        rw [hsame]
        refine ⟨hu, fun c' hc' => ?_⟩
        obtain rfl := Option.some.inj hc'
        exact ⟨hkey, a, hget, hspec.trans hspec'⟩

/-! ## Failed members -/

/-- What the course of a pass is while it deals with failed members : so many were counted. -/
structure Dealing (failed : List Key) (counted : Nat) (s : Course) : Prop where
  failed : s.failed = failed
  counted : s.handled + s.strays = counted
  raised : s.raised = 0

variable {failed : List Key} {counted : Nat}

theorem Dealing.read (h : Dealing failed counted s) (c : Option Collection) :
    Dealing failed counted { s with read := c } :=
  ⟨h.failed, h.counted, h.raised⟩

/-- It has read the collection before. -/
structure Engaged (failed : List Key) (counted : Nat) (s : Course) : Prop
    extends Dealing failed counted s where
  isSome_read : s.read.isSome

theorem Engaged.handle {k : Key} (h : Engaged failed counted s) (hk : k ∈ failed) :
    Engaged failed (counted + 1) (s.handle k) := by
  rw [Course.handle, if_pos (h.failed ▸ hk)]
  have hcounted := h.counted
  exact ⟨⟨h.failed, by simp only; omega, h.raised⟩, h.isSome_read⟩

/-- Whoever is detached is one more that was counted, and so is a stray. -/
theorem keeps_detach {k : Key} (hk : k ∈ failed) (hs : Engaged failed counted s) :
    (Pass.access (.modify retry .gameServer k (Pass.detach key.name))).run.Keeps (contract key)
      (Ends (fun r t => Engaged failed (counted + if r.isSome then 1 else 0) t)
        fun _ t => t.raised = 0) s := by
  have hone {g : GameServer} : Pass.detach key.name g = none ↔ g.collection? ≠ some key.name := by
    unfold Pass.detach
    split <;> simp_all
  suffices hchanges : Access.Changes (contract key) .gameServer k (Pass.detach key.name)
      (Engaged failed counted) (fun g t => t.server = some g ∧ Resource.key g = k ∧
        Engaged failed (counted + if Pass.detach key.name g = none then 1 else 0) t) _ from
    Pass.keeps_access (hchanges.keeps retry hs)
  constructor
  case get => exact fun _ => trivial
  case missing =>
    rintro u _ hu ⟨-, rfl⟩
    exact ⟨⟨hu.failed, hu.counted, hu.raised⟩, hu.isSome_read⟩
  case found =>
    rintro u g _ hu ⟨hpossible, rfl⟩
    have hkey : Resource.key g = k := hpossible.tells
    refine ⟨rfl, hkey, ⟨hu.failed, ?_, hu.raised⟩, hu.isSome_read⟩
    have hstray : u.IsStray key g ↔ Pass.detach key.name g = none := by
      rw [hone, IsStray, hkey, hu.failed]
      exact and_iff_right hk
    have hcounted := hu.counted
    simp only [after, hstray]
    omega
  case failed =>
    rintro u e _ hu ⟨-, rfl⟩
    exact ⟨hu.raised, fun _ => hu⟩
  case left =>
    rintro g u ⟨-, -, hu⟩ hnone
    rwa [if_pos hnone] at hu
  case update =>
    rintro g g' u ⟨hserver, hkey, hu⟩ hg'
    exact ⟨hu.isSome_read, g, hserver, .inl ⟨by rw [hkey, hu.failed]; exact hk, hg'⟩⟩
  case written =>
    rintro g g' u b _ ⟨-, hkey, hu⟩ hg' ⟨-, rfl⟩
    rw [if_neg (by simp [hg'])] at hu
    have hkey' : Resource.key g' ∈ failed := by
      rw [(Pass.leaving_detach hg').1, hkey]
      exact hk
    exact hu.handle hkey'
  case refused =>
    rintro g g' u e _ ⟨-, -, hu⟩ hg' ⟨-, rfl⟩
    rw [if_neg (by simp [hg'])] at hu
    exact ⟨hu.raised, fun _ => hu⟩
  case pause => exact fun _ => trivial
  case paused =>
    rintro u failures _ hu ⟨-, rfl⟩
    exact hu

theorem keeps_handleFailure {c : Collection} (hname : c.metadata.name = key.name) {k : Key}
    (hk : k ∈ failed) (hs : Engaged failed counted s) :
    (Pass.handleFailure context c k).run.Keeps (contract key)
      (Ends (fun done t => Engaged failed (counted + if done then 1 else 0) t)
        fun _ t => t.raised = 0) s := by
  unfold Pass.handleFailure
  cases c.spec.failBehavior with
  | remove =>
    simp only [hname]
    exact (keeps_detach hk hs).bindExcept fun r t ht => ht
  | delete =>
    have hmay : s.May key (.delete .gameServer k) := ⟨hs.isSome_read, by rwa [hs.failed]⟩
    refine (keeps_ask hmay).bindExcept ?_
    rintro answer _ ⟨-, rfl⟩
    cases answer with
    | ok _ => exact hs.handle hk
    | error cause =>
      simp only
      split
      · exact hs
      · exact hs.raised

theorem keeps_handleAll {c : Collection} (hname : c.metadata.name = key.name) (keys : List Key)
    (hkeys : ∀ k ∈ keys, k ∈ failed) (hs : Engaged failed counted s) :
    (Pass.handleAll context c keys counted).run.Keeps (contract key)
      (Ends (fun handled t => Engaged failed handled t) fun _ t => t.raised = 0) s := by
  induction keys generalizing counted s with
  | nil => exact hs
  | cons k rest ih =>
    refine (keeps_handleFailure hname (hkeys k List.mem_cons_self) hs).bindExcept ?_
    intro done t ht
    refine ih (fun k' hk' => hkeys k' (List.mem_cons_of_mem _ hk')) ?_
    cases done <;> exact ht

theorem intervene_times {c c' : Collection} (h : Pass.intervene c = some c') :
    c'.status.timesFailed = c.status.timesFailed := by
  rw [(Pass.eq_of_intervene h).2]

theorem Dealing.concluded (h : Dealing failed 0 s) : s.Concluded := .inl ⟨h.raised, .inl h.counted⟩

theorem keeps_escalate {c : Collection} (hkey : Resource.key c = key)
    (hs : Dealing failed 0 s) :
    (Pass.escalate context c).run.Keeps (contract key)
      (Ends (fun _ t => t.Concluded) fun _ t => t.raised = 0) s := by
  unfold Pass.escalate
  rw [hkey]
  refine (keeps_modify_status (fun _ _ hu => hu.read _) (fun _ hu => hu.raised)
    (fun u a b _ hb => ?_) hs).bindExcept fun r t ht => ?_
  · obtain ⟨hmeta, hspec⟩ := Pass.intervene_keeps hb
    exact ⟨hmeta, hspec, intervene_times hb, .inr (.inl hb)⟩
  · split
    · exact keeps_record ht.1.concluded
    · exact ht.1.concluded

/-- The failures that were counted are added to the count. -/
theorem keeps_countFailures (hs : Dealing failed counted s) :
    (Pass.access (.modify retry .collection key fun latest =>
      some (Pass.countFailures counted latest))).run.Keeps (contract key)
      (Ends (fun _ t => t.Concluded) fun _ t => t.raised = 0) s := by
  refine (keeps_modify (fun _ _ hu => hu.read _) (fun _ hu => hu.raised)
    (fun u a b hu hb => ?_) hs).mono fun r t hr => ?_
  · obtain rfl := Option.some.inj hb
    exact ⟨rfl, .inr (.inr (by rw [hu.counted]))⟩
  · rcases r with e | _ | c
    · exact hr
    · obtain ⟨ht, hnone⟩ := hr.1 rfl
      exact .inl ⟨ht.raised, .inr hnone⟩
    · obtain ⟨-, u, a, hu, hget, ⟨hleft, -⟩ | ⟨b, hb, -, rfl⟩⟩ := hr.2 c rfl
      · cases hleft
      · obtain rfl := Option.some.inj hb
        exact .inr ⟨a, hget, by rw [hu.counted]⟩

theorem keeps_handleFailures {c : Collection} (hkey : Resource.key c = key) (keys : List Key)
    (hkeys : ∀ k ∈ keys, k ∈ failed) (hs : Engaged failed 0 s) :
    (Pass.handleFailures context c keys).run.Keeps (contract key)
      (Ends (fun _ t => t.Concluded) fun _ t => t.raised = 0) s := by
  unfold Pass.handleFailures
  split
  · exact keeps_escalate hkey hs.toDealing
  · have hname : c.metadata.name = key.name := congrArg Key.name hkey
    refine (keeps_handleAll hname keys hkeys hs).bindExcept fun handled t ht => ?_
    split
    · next hnone =>
      rw [hnone] at ht
      exact ht.concluded
    · rw [hkey]
      exact (keeps_countFailures ht.toDealing).bindExcept fun _ u hu => keeps_record hu

/-! ## Scaling -/

/-- What the course of a pass is while it makes members : none has failed of those that it has
listed, and it has read how many are asked for. -/
structure Scaling (members : List GameServer) (replicas : UInt32) (s : Course) : Prop where
  dealing : Dealing [] 0 s
  listed : s.listed = some members
  read : ∃ c, s.read = some c ∧ c.spec.replicas = replicas

variable {members : List GameServer} {replicas : UInt32}

theorem Scaling.made (h : Scaling members replicas s) (n : Nat) :
    Scaling members replicas { s with made := n } :=
  ⟨⟨h.dealing.failed, h.dealing.counted, h.dealing.raised⟩, h.listed, h.read⟩

theorem Scaling.engaged (h : Scaling members replicas s) : Engaged [] 0 s := by
  obtain ⟨c, hread, -⟩ := h.read
  exact ⟨h.dealing, by rw [hread]; rfl⟩

theorem keeps_createMember {c : Collection} (hkey : Resource.key c = key)
    (hs : Scaling members replicas s) (hroom : members.length + s.made < replicas.toNat) :
    (Pass.createMember c).run.Keeps (contract key)
      (Ends (fun _ t => Scaling members replicas t ∧ t.made = s.made + 1)
        fun _ t => t.raised = 0) s := by
  refine (Pass.keeps_ignored (ignores_suffix _)).bindExcept fun suffix t ht => ?_
  subst ht
  refine (Pass.keeps_allocate (ignores_allocate _) (ignores_release _)
    (fun _ => hs.dealing.raised) _ _).bindExcept fun taken u hu => ?_
  subst hu
  obtain ⟨latest, hread, hreplicas⟩ := hs.read
  refine (keeps_ask ?_).bindExcept ?_
  · exact ⟨Collection.isMember_newMember hkey _, hs.dealing.failed, latest, members, hread,
      hs.listed, by rwa [hreplicas]⟩
  · rintro answer _ ⟨-, rfl⟩
    cases answer with
    | ok _ => exact ⟨hs.made _, rfl⟩
    | error cause => exact Pass.keeps_release_throw (ignores_release _ _) hs.dealing.raised

theorem keeps_createMembers {c : Collection} (hkey : Resource.key c = key) (n : Nat)
    (hs : Scaling members replicas s) (hroom : members.length + s.made + n ≤ replicas.toNat) :
    (Pass.createMembers c n).run.Keeps (contract key)
      (Ends (fun _ t => Dealing [] 0 t) fun _ t => t.raised = 0) s := by
  induction n generalizing s with
  | zero => exact hs.dealing
  | succ n ih =>
    refine (keeps_createMember hkey hs (by omega)).bindExcept fun _ t ht => ?_
    exact ih ht.1 (by rw [ht.2]; omega)

/-- Members that leave when there are too many are none that have failed. -/
theorem keeps_detachMarked {k : Key} (hs : Engaged [] 0 s) :
    (Pass.access (.modify retry .gameServer k (Pass.detachMarked key.name))).run.Keeps
      (contract key) (Ends (fun _ t => Engaged [] 0 t) fun _ t => t.raised = 0) s := by
  suffices hchanges : Access.Changes (contract key) .gameServer k (Pass.detachMarked key.name)
      (Engaged [] 0) (fun g t => t.server = some g ∧ Engaged [] 0 t) _ from
    Pass.keeps_access (hchanges.keeps retry hs)
  have hhandle {u : Course} (hu : Engaged [] 0 u) (k : Key) : u.handle k = u := by
    rw [Course.handle, hu.failed, if_neg (by simp)]
  constructor
  case get => exact fun _ => trivial
  case missing =>
    rintro u _ hu ⟨-, rfl⟩
    exact ⟨⟨hu.failed, hu.counted, hu.raised⟩, hu.isSome_read⟩
  case found =>
    rintro u g _ hu ⟨-, rfl⟩
    refine ⟨rfl, ⟨hu.failed, ?_, hu.raised⟩, hu.isSome_read⟩
    have hstray : ¬u.IsStray key g := fun h => by simp [IsStray, hu.failed] at h
    simp only [after, if_neg hstray, Nat.add_zero]
    exact hu.counted
  case failed =>
    rintro u e _ hu ⟨-, rfl⟩
    exact ⟨hu.raised, fun _ => hu⟩
  case left => exact fun hu _ => hu.2
  case update =>
    rintro g g' u ⟨hserver, hu⟩ hg'
    exact ⟨hu.isSome_read, g, hserver, .inr ⟨hu.failed, hg'⟩⟩
  case written =>
    rintro g g' u b _ ⟨-, hu⟩ - ⟨-, rfl⟩
    simp only [after, hhandle hu]
    exact hu
  case refused =>
    rintro g g' u e _ ⟨-, hu⟩ - ⟨-, rfl⟩
    exact ⟨hu.raised, fun _ => hu⟩
  case pause => exact fun _ => trivial
  case paused =>
    rintro u failures _ hu ⟨-, rfl⟩
    exact hu

theorem keeps_detachAll (keys : List Key) (hs : Engaged [] 0 s) :
    (Pass.detachAll context key.name keys).run.Keeps (contract key)
      (Ends (fun _ t => Engaged [] 0 t) fun _ t => t.raised = 0) s := by
  induction keys generalizing s with
  | nil => exact hs
  | cons k rest ih => exact (keeps_detachMarked hs).bindExcept fun _ t ht => ih ht

theorem keeps_scale {c : Collection} (hkey : Resource.key c = key)
    (hs : Scaling members c.spec.replicas s) (hmade : s.made = 0) :
    (Pass.scale context c members).run.Keeps (contract key)
      (Ends (fun _ t => t.Concluded) fun _ t => t.raised = 0) s := by
  unfold Pass.scale
  simp only
  split
  · refine (keeps_createMembers hkey _ hs (by omega)).bindExcept fun _ t ht => ?_
    exact keeps_record ht.concluded
  split
  · refine (Pass.keeps_ignored (ignores_pick _ _)).bindExcept fun picked t ht => ?_
    subst ht
    have hname : c.metadata.name = key.name := congrArg Key.name hkey
    rw [hname]
    refine (keeps_detachAll _ hs.engaged).bindExcept fun _ u hu => ?_
    exact keeps_record hu.concluded
  · exact keeps_record hs.dealing.concluded

/-! ## The pass -/

theorem summary_times {summary : Pass.Summary} {c c' : Collection}
    (h : summary.change c = some c') : c'.status.timesFailed = c.status.timesFailed := by
  rw [Pass.Summary.eq_of_change h]

/-- The course of a pass that has just listed the members. -/
structure Begun (members : List GameServer) (s : Course) : Prop where
  listed : s.listed = some members
  made : s.made = 0
  counted : s.handled + s.strays = 0
  raised : s.raised = 0

theorem Begun.dealing (h : Begun members s) :
    Dealing ((members.filter fun g => g.status.health = .failed).map Resource.key) 0 s := by
  refine ⟨?_, h.counted, h.raised⟩
  rw [Course.failed, h.listed, Option.getD_some]

theorem keeps_look : (Pass.cached .collection key).run.Keeps (contract key)
    (Ends (fun found t => t = start ∧ ∀ c, found = some c → Resource.key c = key)
      fun _ t => t.raised = 0) start := by
  refine ⟨trivial, ?_⟩
  rintro answer _ ⟨hpossible, rfl⟩
  cases answer with
  | ok found =>
    refine ⟨rfl, fun c hc => ?_⟩
    subst hc
    exact hpossible.tells
  | error e => rfl

theorem keeps_list {c : Collection} (hkey : Resource.key c = key) :
    (Pass.access (.list .gameServer c.metadata.ns c.memberSelector)).run.Keeps (contract key)
      (Ends Begun fun _ t => t.raised = 0) start := by
  refine ⟨⟨congrArg Key.ns hkey, congrArg (Selector.ofLabel _) (congrArg Key.name hkey)⟩, ?_⟩
  rintro answer _ ⟨-, rfl⟩
  cases answer with
  | ok found => exact ⟨rfl, rfl, rfl, rfl⟩
  | error e => rfl

/-- A pass over a collection asks for what it may. When it has ended, it has raised the count of
failures by what it has dealt with, unless it has failed or has not found the collection any
more. -/
theorem keeps_collection :
    (Pass.collection context key).run.Keeps (contract key)
      (Ends (fun _ t => t.Concluded) fun _ t => t.raised = 0) start := by
  have hstart : Concluded start := .inl ⟨rfl, .inl rfl⟩
  refine keeps_look.bindExcept ?_
  rintro found _ ⟨rfl, hseen⟩
  cases found with
  | none => exact hstart
  | some seen =>
    simp only
    split
    · exact hstart
    refine (keeps_list (hseen seen rfl)).bindExcept ?_
    intro members s hs
    refine (keeps_modify_status (Q := fun t => Begun members t)
      (fun _ _ hu => ⟨hu.listed, hu.made, hu.counted, hu.raised⟩) (fun _ hu => hu.raised)
      (fun u a b hu hb => ?_) hs).bindExcept ?_
    · obtain ⟨hmeta, hspec⟩ := Pass.Summary.change_keeps hb
      refine ⟨hmeta, hspec, summary_times hb, .inl ?_⟩
      rw [hu.listed]
      exact hb
    · rintro r t ⟨ht, hr⟩
      cases r with
      | none => exact ht.dealing.concluded
      | some c =>
        obtain ⟨hkey, a, hread, hspec⟩ := hr c rfl
        simp only
        split
        · exact keeps_handleFailures hkey _ (fun _ hk => hk) ⟨ht.dealing, by rw [hread]; rfl⟩
        next hnone =>
        split
        · exact ht.dealing.concluded
        · refine keeps_scale hkey ⟨?_, ht.listed, a, hread, by rw [hspec]⟩ ht.made
          have hempty : members.filter (fun g => g.status.health = .failed) = [] := by
            simpa using hnone
          have hdealing := ht.dealing
          rwa [hempty] at hdealing

/-! ## Deeds -/

theorem of_concat (past : List Exchange) (x : Exchange) :
    of key (past ++ [x]) = (of key past).after key x := by
  simp [of]

/-- The collection was read last before, or now. -/
theorem read_after (s : Course) (x : Exchange) : (s.after key x).read = s.read ∨
    ∃ k found, x = ⟨.get .collection k, .ok found⟩ ∧ (s.after key x).read = found := by
  unfold after
  split
  · exact .inl rfl
  · next k found => exact .inr ⟨k, found, rfl, rfl⟩
  · exact .inl rfl
  · exact .inl rfl
  · exact .inl rfl
  · next g b =>
    obtain ⟨n, hn⟩ := s.handle_eq (Resource.key g)
    exact .inl (by rw [hn])
  · next k u =>
    obtain ⟨n, hn⟩ := s.handle_eq k
    exact .inl (by rw [hn])
  · exact .inl rfl
  · exact .inl rfl

theorem server_after {x : Exchange} {g : GameServer} (h : (s.after key x).server = some g) :
    s.server = some g ∨ ∃ k, x = ⟨.get .gameServer k, .ok (some g)⟩ := by
  unfold after at h
  split at h
  · exact .inl h
  · exact .inl h
  · cases h
  · next k found => exact .inr ⟨k, by rw [← Option.some.inj h]⟩
  · exact .inl h
  · next g b =>
    obtain ⟨n, hn⟩ := s.handle_eq (Resource.key g)
    exact .inl (by rwa [hn] at h)
  · next k u =>
    obtain ⟨n, hn⟩ := s.handle_eq k
    exact .inl (by rwa [hn] at h)
  · exact .inl h
  · exact .inl h

theorem listed_after {x : Exchange} {found : List GameServer}
    (h : (s.after key x).listed = some found) :
    (∃ ns selector, x = ⟨.list .gameServer ns selector, .ok found⟩) ∨
      s.listed = some found ∧ s.made ≤ (s.after key x).made := by
  revert h
  unfold after
  split
  · next ns selector listed => exact fun h => .inl ⟨ns, selector, by rw [← Option.some.inj h]⟩
  · exact fun h => .inr ⟨h, le_rfl⟩
  · exact fun h => .inr ⟨h, le_rfl⟩
  · exact fun h => .inr ⟨h, le_rfl⟩
  · exact fun h => .inr ⟨h, Nat.le_succ _⟩
  · next g b =>
    obtain ⟨n, hn⟩ := s.handle_eq (Resource.key g)
    rw [hn]
    exact fun h => .inr ⟨h, le_rfl⟩
  · next k u =>
    obtain ⟨n, hn⟩ := s.handle_eq k
    rw [hn]
    exact fun h => .inr ⟨h, le_rfl⟩
  · exact fun h => .inr ⟨h, le_rfl⟩
  · exact fun h => .inr ⟨h, le_rfl⟩

/-- The collection that was read was stored at some moment. -/
theorem past_of_read {w : World} {past : List Exchange} {c : Collection}
    (hshown : ∀ x ∈ past, x.Shown w) (h : (of key past).read = some c) :
    w.Past .collection c := by
  induction past using List.reverseRecOn with
  | nil => cases h
  | append_singleton past x ih =>
    rw [of_concat] at h
    rcases (of key past).read_after x with hsame | ⟨k, found, rfl, hfound⟩
    · exact ih (fun y hy => hshown y (List.mem_append_left _ hy)) (hsame.symm.trans h)
    · obtain rfl := hfound.symm.trans h
      exact (hshown _ (List.mem_append_right _ List.mem_cons_self)).2

/-- The instance that was read was stored at some moment. -/
theorem past_of_server {w : World} {past : List Exchange} {g : GameServer}
    (hshown : ∀ x ∈ past, x.Shown w) (h : (of key past).server = some g) :
    w.Past .gameServer g := by
  induction past using List.reverseRecOn with
  | nil => cases h
  | append_singleton past x ih =>
    rw [of_concat] at h
    rcases server_after h with h | ⟨k, rfl⟩
    · exact ih (fun y hy => hshown y (List.mem_append_left _ hy)) h
    · exact (hshown _ (List.mem_append_right _ List.mem_cons_self)).2

theorem keeps_duty {d : Duty} (h : d.IsPassOver key) :
    d.program.Keeps (contract key) (fun _ _ => True) start := by
  obtain ⟨context, rfl⟩ := h
  exact keeps_collection.bind fun _ _ _ => trivial

end Course

namespace Chronicle

/-- What a pass over a collection has done is what it may. -/
theorem Happened.may_course {deeds : List Deed} {d : Deed} {key : Key} (h : Happened deeds d)
    (hpossible : FairTo deeds (fun _ x => x.Possible) d.duty) (hpass : d.duty.IsPassOver key) :
    (Course.of key d.past).May key d.exchange.request :=
  h.may (Course.keeps_duty hpass) hpossible

end Chronicle

end GameFleet
