import GameFleet.Proofs.Pass.Contract
import GameFleet.Proofs.Port.Claims

/-!
# What programs hold

Between the allocation of a host port and the write that puts it on an instance, the port is
with the program that has asked for it. A `Tenant` is what such a program knows : the claims
that it holds, and the instances that it has found. `tenancy` is what is asked of it. An
instance that it creates claims what it holds, an instance that it updates claims what it
holds beside what the instance claimed when it was found, and what it gives back is what it
holds.

`Program.Handles` says that a program keeps to this, with what it holds when it begins and
when it is done. There is a rule for each way to build programs, and one for each request
that moves claims. Editing an instance needs no claims as long as it goes on to claim what
it claimed (`Access.handles_editGameServer`).
-/

namespace GameFleet

/-! ## Tenants -/

/-- What a program knows of host ports. -/
structure Tenant where
  /-- Instances as they were found. -/
  seen : List GameServer
  held : Multiset (Key × Port)

namespace Tenant

/-- The requests by which no claim is lost or made up. -/
def May (t : Tenant) : Request → Prop
  | .create .gameServer g => (g.claims : Multiset (Key × Port)) = t.held
  | .update .gameServer g => ∃ old ∈ t.seen, Resource.key g = Resource.key old ∧
      Resource.version g = Resource.version old ∧
      (g.claims : Multiset (Key × Port)) = old.claims + t.held
  | .release owner ports => claimsTo owner ports = t.held
  | _ => True

/-- The instances that an answer shows. -/
def shown : (request : Request) → request.Answer → List GameServer
  | .cached .gameServer _, .ok found => found.toList
  | .get .gameServer _, .ok found => found.toList
  | _, _ => []

/-- What is held after an answer. -/
def heldAfter (held : Multiset (Key × Port)) :
    (request : Request) → request.Answer → Multiset (Key × Port)
  | .create .gameServer _, .ok _ => 0
  | .update .gameServer _, .ok _ => 0
  | .allocate owner, .ok p => (owner, p) ::ₘ held
  | .release _ _, _ => 0
  | _, _ => held

/-- What is known after an answer. -/
def after (t : Tenant) (request : Request) (answer : request.Answer) : Tenant :=
  ⟨t.seen ++ shown request answer, heldAfter t.held request answer⟩

/-- The tenant holds these claims, and has found these instances. -/
structure Has (t : Tenant) (gs : List GameServer) (held : Multiset (Key × Port)) : Prop where
  held : t.held = held
  seen : ∀ g ∈ gs, g ∈ t.seen

variable {t : Tenant} {gs : List GameServer} {held : Multiset (Key × Port)}

theorem Has.after (h : t.Has gs held) (request : Request) (answer : request.Answer) :
    (t.after request answer).Has (shown request answer ++ gs) (heldAfter held request answer) where
  held := by rw [← h.held]; rfl
  seen g hg := by
    rcases List.mem_append.1 hg with hg | hg
    · exact List.mem_append_right _ hg
    · exact List.mem_append_left _ (h.seen g hg)

theorem Has.forget {more : List GameServer} (h : t.Has (more ++ gs) held) : t.Has gs held :=
  ⟨h.held, fun g hg => h.seen g (List.mem_append_right _ hg)⟩

end Tenant

/-! ## Idle requests -/

/-- Requests that have nothing to do with claims. -/
def Request.Idle : Request → Prop
  | .create .gameServer _ => False
  | .update .gameServer _ => False
  | .allocate _ => False
  | .release _ _ => False
  | _ => True

theorem Tenant.may_of_idle {request : Request} (h : request.Idle) (t : Tenant) :
    t.May request := by
  cases request with
  | create kind a => cases kind <;> first | exact h.elim | trivial
  | update kind a => cases kind <;> first | exact h.elim | trivial
  | release owner ports => exact h.elim
  | _ => trivial

theorem Tenant.heldAfter_of_idle {request : Request} (h : request.Idle)
    (held : Multiset (Key × Port)) (answer : request.Answer) :
    heldAfter held request answer = held := by
  cases request with
  | create kind a => cases kind <;> first | exact h.elim | rfl
  | update kind a => cases kind <;> first | exact h.elim | rfl
  | allocate owner => exact h.elim
  | release owner ports => exact h.elim
  | _ => rfl

theorem Request.idle_create {kind : Kind} (h : kind ≠ .gameServer) (a : kind.Obj) :
    (create kind a).Idle := by
  cases kind with
  | gameServer => exact absurd rfl h
  | _ => trivial

theorem Request.idle_update {kind : Kind} (h : kind ≠ .gameServer) (a : kind.Obj) :
    (update kind a).Idle := by
  cases kind with
  | gameServer => exact absurd rfl h
  | _ => trivial

/-! ## Rules -/

/-- What is asked of a program. -/
def tenancy : Contract Tenant := ⟨Tenant.May, fun t request answer u => u = t.after request answer⟩

/-- The program keeps to its tenancy when it has found the instances `gs`. It begins with the
claims `held` and ends with those that `left` says. -/
def Program.Handles {α : Type} (gs : List GameServer) (held : Multiset (Key × Port))
    (left : α → Multiset (Key × Port)) (p : Program α) : Prop :=
  ∀ t : Tenant, t.Has gs held → p.Keeps tenancy (fun a u => u.Has gs (left a)) t

/-- What is left by a program that leaves nothing when it fails. -/
def orNothing {α ε : Type} (left : α → Multiset (Key × Port)) :
    Except ε α → Multiset (Key × Port)
  | .ok a => left a
  | .error _ => 0

namespace Program

variable {α β ε : Type} {gs : List GameServer} {held : Multiset (Key × Port)}
  {mid : α → Multiset (Key × Port)} {left : β → Multiset (Key × Port)}

theorem Handles.bind {p : Program α} {f : α → Program β} (h : p.Handles gs held mid)
    (hf : ∀ a, (f a).Handles gs (mid a) left) : (p >>= f).Handles gs held left :=
  fun t ht => (h t ht).bind fun a u hu => hf a u hu

theorem handles_throw (e : ε) :
    (throw e : ExceptT ε Program β).run.Handles gs 0 (orNothing left) :=
  fun _ ht => ht

/-- A failure ends a sequence, and leaves nothing. -/
theorem Handles.bindExcept {p : ExceptT ε Program α} {f : α → ExceptT ε Program β}
    (h : p.run.Handles gs held (orNothing mid))
    (hf : ∀ a, (f a).run.Handles gs (mid a) (orNothing left)) :
    (p >>= f).run.Handles gs held (orNothing left) := by
  rw [ExceptT.run_bind]
  refine h.bind fun r => ?_
  cases r with
  | ok a => exact hf a
  | error e => exact fun t ht => ht

/-! ### Requests -/

theorem handles_ask {request : Request} {left : request.Answer → Multiset (Key × Port)}
    (hmay : ∀ t : Tenant, t.Has gs held → t.May request)
    (hleft : ∀ answer, Tenant.heldAfter held request answer = left answer) :
    (ask request).Handles gs held left := by
  intro t ht
  refine keeps_ask (hmay t ht) ?_
  rintro answer u rfl
  have hafter := (ht.after request answer).forget
  rwa [hleft answer] at hafter

theorem handles_idle (request : Request) (h : request.Idle) :
    (ask request).Handles gs held fun _ => held :=
  handles_ask (fun t _ => t.may_of_idle h) (Tenant.heldAfter_of_idle h held)

/-- What an instance is created with has to be what it claims. -/
theorem handles_create {g : GameServer} (h : (g.claims : Multiset (Key × Port)) = held) :
    (ask (.create .gameServer g)).Handles gs held fun r => match r with
      | .ok _ => 0
      | .error _ => held := by
  refine handles_ask (fun t ht => h.trans ht.held.symm) fun answer => ?_
  cases answer <;> rfl

/-- What an instance is updated with is added to what it claimed when it was found. -/
theorem handles_update (g old : GameServer) (hkey : Resource.key g = Resource.key old)
    (hversion : Resource.version g = Resource.version old)
    (hclaims : (g.claims : Multiset (Key × Port)) = old.claims + held) :
    (ask (.update .gameServer g)).Handles (old :: gs) held fun r => match r with
      | .ok _ => 0
      | .error _ => held := by
  refine handles_ask (fun t ht => ?_) fun answer => ?_
  · exact ⟨old, ht.seen old List.mem_cons_self, hkey, hversion, by rw [hclaims, ht.held]⟩
  · cases answer <;> rfl

/-- What is given back is all that is held. -/
theorem handles_release (owner : Key) (ports : List Port) :
    (ask (.release owner ports)).Handles gs (claimsTo owner ports) fun _ => 0 :=
  handles_ask (fun _ ht => ht.held.symm) fun _ => rfl

theorem handles_allocate (owner : Key) :
    (ask (.allocate owner)).Handles gs held fun r => match r with
      | .ok p => (owner, p) ::ₘ held
      | .error _ => held :=
  handles_ask (fun _ _ => trivial) fun answer => by cases answer <;> rfl

end Program

/-! ### Instances -/

/-- The instance differs from another one neither in its name and version nor in the host
ports that it exposes. -/
structure GameServer.Resembles (g old : GameServer) : Prop where
  key : Resource.key g = Resource.key old
  version : Resource.version g = Resource.version old
  ports : g.exposedHostPorts.Perm old.exposedHostPorts

theorem GameServer.Resembles.claims {g old : GameServer} (h : g.Resembles old) :
    (g.claims : Multiset (Key × Port)) = old.claims := by
  rw [GameServer.claims, GameServer.claims, h.key, Multiset.coe_eq_coe]
  exact h.ports.map _

section

variable {gs : List GameServer}

/-- An object is edited with empty hands, and what is found stays known. -/
theorem Access.handles_edit (retry : Retry) (kind : Kind) (key : Key)
    (edit : kind.Obj → kind.Obj × Bool)
    (h : ∀ a copy, edit a = (copy, true) → ∀ t : Tenant,
      t.Has (Tenant.shown (.get kind key) (.ok (some a)) ++ gs) 0 → t.May (.update kind copy)) :
    (Access.edit retry kind key edit).run.Handles gs 0 fun _ => 0 := by
  have hwrite (copy : kind.Obj) (answer : Except StoreError kind.Obj) :
      Tenant.heldAfter 0 (.update kind copy) answer = 0 := by
    cases kind <;> cases answer <;> rfl
  have hedits : Access.Edits tenancy kind key edit (fun t => t.Has gs 0)
      (fun a t => t.Has (Tenant.shown (.get kind key) (.ok (some a)) ++ gs) 0)
      fun _ t => t.Has gs 0 := by
    constructor
    case get => exact fun _ => trivial
    case missing =>
      rintro t _ ht rfl
      exact (ht.after _ _).forget
    case found =>
      rintro t a _ ht rfl
      exact ht.after _ _
    case failed =>
      rintro t e _ ht rfl
      exact ⟨(ht.after _ _).forget, fun _ => (ht.after _ _).forget⟩
    case left => exact fun ht _ => ht.forget
    case update => exact fun ht hedit => h _ _ hedit _ ht
    case written =>
      rintro a copy t b _ ht _ rfl
      have hafter := (ht.forget.after (.update kind copy) (.ok b)).forget
      rwa [hwrite] at hafter
    case refused =>
      rintro a copy t e _ ht _ rfl
      have hafter := (ht.forget.after (.update kind copy) (.error e)).forget
      rw [hwrite] at hafter
      exact ⟨hafter, fun _ => hafter⟩
    case pause => exact fun _ => trivial
    case paused =>
      rintro t failures _ ht rfl
      exact (ht.after _ _).forget
  exact fun t ht => hedits.keeps retry ht

theorem Access.handles_editGameServer (retry : Retry) (key : Key)
    (edit : GameServer → GameServer × Bool) (h : ∀ g, (edit g).2 = true → (edit g).1.Resembles g) :
    (Access.edit retry .gameServer key edit).run.Handles gs 0 fun _ => 0 := by
  refine handles_edit retry .gameServer key edit fun g copy hedit t ht => ?_
  have hcopy := h g (by rw [hedit])
  rw [hedit] at hcopy
  exact ⟨g, ht.seen g List.mem_cons_self, hcopy.key, hcopy.version, by
    rw [hcopy.claims, ht.held, add_zero]⟩

end

end GameFleet
