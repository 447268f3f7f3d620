import GameFleet.Proofs.Port.Registry

/-!
# What the arbiter serves

The arbiter of the ports serves one request after the other. A `Service` is a request with its
answer, and whether its caller was still there. A service of one owner takes nothing from another :
who holds a port goes on to hold it unless a release of it by the same owner is served
(`Arbiter.holder?_handle_of_holder?`), a port that is delivered was free
(`Arbiter.holder?_handle_of_gives`), and an allocation for a caller who is gone takes no port
(`Arbiter.holder?_handle_of_gone`).

`Registry.turn_cases` says what a turn of the arbiter is, and `Registry.submit_of_room` and
`Registry.submit_of_finished` what becomes of a request.
-/

namespace GameFleet

/-! ## What the arbiter does -/

/-- A request that the arbiter has served. -/
structure Service where
  call : PortCall
  answer : PortAnswer
  /-- The caller was there when the answer was. -/
  delivered : Bool

namespace Service

/-- A port is delivered to an owner. -/
def Gives (s : Service) (owner : Key) (p : Port) : Prop :=
  s.call.request = .allocate owner ∧ s.answer = .allocated (.ok p) ∧ s.delivered = true

/-- An owner releases some ports, of which this is one. -/
def Frees (s : Service) (owner : Key) (p : Port) : Prop :=
  ∃ ports, s.call.request = .release owner ports ∧ p ∈ ports

end Service

/-- The port was delivered to the owner, who has not released it since. -/
def Stands (served : List Service) (owner : Key) (p : Port) : Prop :=
  ∃ before s after, served = before ++ s :: after ∧ s.Gives owner p ∧ ∀ r ∈ after, ¬r.Frees owner p

/-- A split of a list with one more element is at that element or before it. -/
theorem concat_eq_split {α : Type} {l before after : List α} {a b : α}
    (h : l ++ [a] = before ++ b :: after) : (before = l ∧ b = a ∧ after = []) ∨
      ∃ rest, after = rest ++ [a] ∧ l = before ++ b :: rest := by
  rcases List.eq_nil_or_concat after with rfl | ⟨rest, c, rfl⟩
  · obtain ⟨hl, ha⟩ := List.append_inj' h rfl
    exact .inl ⟨hl.symm, (List.singleton_inj.1 ha).symm, rfl⟩
  · have h' : l ++ [a] = (before ++ b :: rest) ++ [c] := by simpa using h
    obtain ⟨hl, ha⟩ := List.append_inj' h' rfl
    obtain rfl := List.singleton_inj.1 ha
    exact .inr ⟨rest, List.concat_eq_append, hl⟩

theorem stands_concat {served : List Service} {s : Service} {owner : Key} {p : Port} :
    Stands (served ++ [s]) owner p ↔ s.Gives owner p ∨ Stands served owner p ∧ ¬s.Frees owner p := by
  constructor
  · rintro ⟨before, t, after, heq, hgives, hfrees⟩
    rcases concat_eq_split heq with ⟨rfl, rfl, rfl⟩ | ⟨rest, rfl, rfl⟩
    · exact .inl hgives
    · refine .inr ⟨⟨before, t, rest, rfl, hgives, fun r hr => ?_⟩, ?_⟩
      · exact hfrees r (List.mem_append_left _ hr)
      · exact hfrees s (List.mem_append_right _ List.mem_cons_self)
  · rintro (hgives | ⟨⟨before, t, after, rfl, hgives, hfrees⟩, hnot⟩)
    · exact ⟨served, s, [], rfl, hgives, fun r hr => by cases hr⟩
    · refine ⟨before, t, after ++ [s], List.append_assoc _ _ _, hgives, fun r hr => ?_⟩
      rcases List.mem_append.1 hr with hr | hr
      · exact hfrees r hr
      · rwa [List.mem_singleton.1 hr]

namespace Arbiter

variable {a : Arbiter} {c : PortCall} {owner : Key} {p : Port}

/-- What it is to handle a request. -/
def service (a : Arbiter) (c : PortCall) : Service :=
  ⟨c, (serve a.pool c.request).1, !a.gone.contains c.ticket⟩

/-- An answer is left for a caller who is there, and an allocated port is taken back from one who
is gone. -/
theorem handle_eq (c : PortCall) (a : Arbiter) : handle c a =
    (if a.gone.contains c.ticket then
      { a with pool := takeBack (serve a.pool c.request).2 c.request (a.service c).answer }
    else { a with
      pool := (serve a.pool c.request).2
      answers := a.answers ++ [(c.ticket, (a.service c).answer)] }, .handled) := by
  simp only [handle, service]
  split <;> rfl

theorem pool_handle (c : PortCall) (a : Arbiter) : (handle c a).1.pool =
    if a.gone.contains c.ticket then
      takeBack (serve a.pool c.request).2 c.request (serve a.pool c.request).1
    else (serve a.pool c.request).2 := by
  rw [handle_eq]
  split <;> rfl

/-- A port that is allocated was free. When the caller is gone it is free again. -/
theorem holder?_handle_allocate (hrequest : c.request = .allocate owner) :
    (∃ p, (a.service c).answer = .allocated (.ok p) ∧ a.pool.holder? p = none ∧
      ∀ q, (handle c a).1.pool.holder? q =
        if p = q ∧ (a.service c).delivered = true then some owner else a.pool.holder? q) ∨
    ((∃ e, (a.service c).answer = .allocated (.error e)) ∧
      (handle c a).1.pool.holder? = a.pool.holder?) := by
  rw [pool_handle]
  simp only [service, hrequest, serve]
  cases hallocate : a.pool.allocate owner with
  | error cause =>
    refine .inr ⟨⟨cause, rfl⟩, ?_⟩
    split <;> rfl
  | ok allocated =>
    obtain ⟨p, pool⟩ := allocated
    obtain ⟨hfree, hholder⟩ := PortPool.allocate_eq_ok hallocate
    refine .inl ⟨p, rfl, hfree, fun q => ?_⟩
    cases hgone : a.gone.contains c.ticket with
    | false => simpa using hholder q
    | true =>
      simp only [Bool.not_true, Bool.false_eq_true, and_false, if_false, if_true, takeBack]
      rw [PortPool.holder?_release, hholder]
      by_cases hq : p = q
      · subst hq
        simp [hfree]
      · simp [hq, Ne.symm hq]

theorem holder?_handle_release {ports : List Port} (hrequest : c.request = .release owner ports)
    (q : Port) : (handle c a).1.pool.holder? q =
      if q ∈ ports ∧ a.pool.holder? q = some owner then none else a.pool.holder? q := by
  have hpool : (handle c a).1.pool = (a.pool.release owner ports).2 := by
    rw [pool_handle]
    simp only [hrequest, serve, takeBack, ite_self]
  rw [hpool, PortPool.holder?_release]

theorem holder?_handle_available (hrequest : c.request = .available) :
    (handle c a).1.pool.holder? = a.pool.holder? := by
  rw [pool_handle]
  simp only [hrequest, serve, takeBack, ite_self]

/-- Who holds a port goes on to hold it, unless a release by the same owner is served. -/
theorem holder?_handle_of_holder? (hp : a.pool.holder? p = some owner)
    (hfrees : ¬(a.service c).Frees owner p) : (handle c a).1.pool.holder? p = some owner := by
  cases hrequest : c.request with
  | allocate other =>
    rcases holder?_handle_allocate (a := a) hrequest with ⟨q, -, hfree, hholder⟩ | ⟨-, hholder⟩
    · rw [hholder, if_neg, hp]
      rintro ⟨rfl, -⟩
      rw [hp] at hfree
      cases hfree
    · rw [hholder, hp]
  | release other ports =>
    rw [holder?_handle_release hrequest, if_neg, hp]
    rintro ⟨hmem, hother⟩
    obtain rfl : owner = other := Option.some.inj (hp.symm.trans hother)
    exact hfrees ⟨ports, hrequest, hmem⟩
  | available => rw [holder?_handle_available hrequest, hp]

/-- A port that is delivered was free, and has its owner then. -/
theorem holder?_handle_of_gives (hgives : (a.service c).Gives owner p) :
    a.pool.holder? p = none ∧ (handle c a).1.pool.holder? p = some owner := by
  obtain ⟨hrequest, hanswer, hdelivered⟩ := hgives
  change c.request = .allocate owner at hrequest
  rcases holder?_handle_allocate (a := a) hrequest with ⟨q, hq, hfree, hholder⟩ | ⟨⟨e, he⟩, -⟩
  · obtain rfl : q = p := by
      rw [hanswer] at hq
      cases hq
      rfl
    exact ⟨hfree, by rw [hholder, if_pos ⟨rfl, hdelivered⟩]⟩
  · rw [hanswer] at he
    cases he

/-- To serve an allocation for a caller who is gone takes no port. -/
theorem holder?_handle_of_gone (hrequest : c.request = .allocate owner)
    (hgone : c.ticket ∈ a.gone) : (handle c a).1.pool.holder? = a.pool.holder? := by
  have hdelivered : (a.service c).delivered = false := by simpa [service] using hgone
  rcases holder?_handle_allocate (a := a) hrequest with ⟨p, -, -, hholder⟩ | ⟨-, hholder⟩
  · funext q
    rw [hholder, if_neg]
    rintro ⟨-, htrue⟩
    rw [hdelivered] at htrue
    cases htrue
  · exact hholder

end Arbiter

/-! ## What the registry does -/

namespace Registry

variable {r after : Registry} {request : PortRequest} {ticket : Nat}

/-- The tickets of the callers that went away. -/
def gone (r : Registry) : List Nat := r.arbiter.state.gone

/-- The answer that is there for a ticket. -/
def answer? (r : Registry) (ticket : Nat) : Option PortAnswer := r.arbiter.state.answers.lookup ticket

/-- What the arbiter serves in its next turn. -/
def due (r : Registry) : List Service :=
  if r.arbiter.stopping || !r.arbiter.reachable then []
  else (r.arbiter.mailbox.head?.map r.arbiter.state.service).toList

/-- In a turn the arbiter ends, or serves the request that has waited longest. -/
theorem turn_cases {actor : Actor Arbiter PortCall}
    (h : r.arbiter.step? Arbiter.behavior = some actor) :
    (r.due = [] ∧ actor = { r.arbiter with mailbox := [], ended := true }) ∨
    ∃ c rest, r.arbiter.ended = false ∧ r.arbiter.mailbox = c :: rest ∧
      r.due = [r.arbiter.state.service c] ∧
      actor = { r.arbiter with state := (Arbiter.handle c r.arbiter.state).1, mailbox := rest } := by
  obtain ⟨hended, ⟨hstop, rfl⟩ | ⟨hstop, c, rest, hmailbox, rfl⟩⟩ := Actor.step?_cases h
  · exact .inl ⟨if_pos hstop, rfl⟩
  · refine .inr ⟨c, rest, hended, hmailbox, by simp [due, hstop, hmailbox], ?_⟩
    rw [show Arbiter.behavior.handle = Arbiter.handle from rfl, Arbiter.handle_eq]
    rfl

/-- A request that there is room for goes to the end of the mailbox. -/
theorem submit_of_room (hroom : r.arbiter.hasRoom = true)
    (h : r.submit request = (some ticket, after)) : r.finished = false ∧ ticket = r.nextTicket ∧
      after = ⟨{ r.arbiter with mailbox := r.arbiter.mailbox ++ [⟨r.nextTicket, request⟩] },
        r.nextTicket + 1⟩ := by
  obtain ⟨⟨state, mailbox, capacity, stopping, reachable, ended⟩, next⟩ := r
  simp only [submit, Actor.send?, hroom, Bool.true_or, if_true, Actor.post?] at h
  cases ended with
  | true => cases h
  | false =>
    cases h
    exact ⟨rfl, rfl, rfl⟩

/-- A registry that has ended takes no request. -/
theorem submit_of_finished (hfinished : r.finished = true) (request : PortRequest) :
    r.submit request = (none, { r with nextTicket := r.nextTicket + 1 }) := by
  have hended : r.arbiter.ended = true := hfinished
  simp [submit, Actor.send?, Actor.post?, hended]

end Registry

end GameFleet
