import GameFleet.Plane.Sample
import GameFleet.Proofs.Plane.Crew
import GameFleet.Proofs.Port.Service

/-!
# Callers of the port registry

A `Desk` is a port registry with the calls that were made to it, any number of them at a time. A
call waits until there is room in the mailbox, then until its request is answered, and its caller
may go away at any time (`Desk.Step`). The arbiter serves one request after the other until it is
told to stop. What it has done is kept in `Desk.served`.

So what callers were told can be compared with what the pool has. A port that was delivered stays
with its owner until the arbiter serves a release of it by the same owner, and is not delivered
again before that; to serve a caller who has gone away takes no port; and whoever was not served
before the arbiter has ended is told that it has stopped (`Desk.honest_of_reachable`).
-/

namespace GameFleet

open Relation

/-! ## Desks -/

/-- How far a call has come. -/
inductive InquiryStage where
  /-- Its request waits for room in the mailbox. -/
  | waiting
  | sent (ticket : Nat)
  /-- It has returned, with an answer or because the registry has stopped. Its request had a ticket
  if it was sent. -/
  | returned (ticket? : Option Nat) (answer? : Option PortAnswer)
  /-- The caller went away. -/
  | vanished (ticket? : Option Nat)

def InquiryStage.ticket? : InquiryStage → Option Nat
  | .waiting => none
  | .sent ticket => some ticket
  | .returned ticket? _ => ticket?
  | .vanished ticket? => ticket?

/-- A call that was made to a registry. -/
structure Inquiry where
  request : PortRequest
  stage : InquiryStage

/-- To release no ports needs no arbiter. -/
def PortRequest.Vain (request : PortRequest) : Prop := ∃ owner, request = .release owner []

structure Desk where
  registry : Registry
  /-- The calls that were made. -/
  inquiries : List Inquiry
  /-- What the arbiter has served. -/
  served : List Service

namespace Desk

inductive Step : Desk → Desk → Prop where
  | call (d : Desk) (request : PortRequest) (h : ¬request.Vain) :
    Step d { d with inquiries := d.inquiries ++ [⟨request, .waiting⟩] }
  | spare (d : Desk) (owner : Key) :
    Step d { d with inquiries :=
      d.inquiries ++ [⟨.release owner [], .returned none (some (.released 0))⟩] }
  | submit (d : Desk) (before after : List Inquiry) (request : PortRequest) (ticket : Nat)
    (r : Registry) (hinquiries : d.inquiries = before ++ ⟨request, .waiting⟩ :: after)
    (hroom : d.registry.arbiter.hasRoom = true)
    (h : d.registry.submit request = (some ticket, r)) :
    Step d { d with registry := r, inquiries := before ++ ⟨request, .sent ticket⟩ :: after }
  /-- The arbiter has ended before there was room. -/
  | refuse (d : Desk) (before after : List Inquiry) (request : PortRequest) (r : Registry)
    (hinquiries : d.inquiries = before ++ ⟨request, .waiting⟩ :: after)
    (hfinished : d.registry.finished = true) (h : d.registry.submit request = (none, r)) :
    Step d { d with registry := r, inquiries := before ++ ⟨request, .returned none none⟩ :: after }
  /-- The arbiter serves a request, or ends. -/
  | turn (d : Desk) (arbiter : Actor Arbiter PortCall)
    (h : d.registry.arbiter.step? Arbiter.behavior = some arbiter) :
    Step d { d with
      registry := { d.registry with arbiter }
      served := d.served ++ d.registry.due }
  /-- The answer is there, or there will be none. -/
  | receive (d : Desk) (before after : List Inquiry) (request : PortRequest) (ticket : Nat)
    (hinquiries : d.inquiries = before ++ ⟨request, .sent ticket⟩ :: after)
    (hready : (d.registry.answer? ticket).isSome ∨ d.registry.finished = true) :
    Step d { d with
      registry := (d.registry.fetch ticket).2
      inquiries := before ++
        ⟨request, .returned (some ticket) (d.registry.fetch ticket).1⟩ :: after }
  /-- A caller goes away before its request was sent. -/
  | withdraw (d : Desk) (before after : List Inquiry) (request : PortRequest)
    (hinquiries : d.inquiries = before ++ ⟨request, .waiting⟩ :: after) :
    Step d { d with inquiries := before ++ ⟨request, .vanished none⟩ :: after }
  /-- A caller goes away who has not fetched its answer. -/
  | vanish (d : Desk) (before after : List Inquiry) (request : PortRequest) (ticket : Nat)
    (hinquiries : d.inquiries = before ++ ⟨request, .sent ticket⟩ :: after) :
    Step d { d with
      registry := d.registry.forsake ticket
      inquiries := before ++ ⟨request, .vanished (some ticket)⟩ :: after }
  | stop (d : Desk) : Step d { d with registry := d.registry.stop }

abbrev Run : Desk → Desk → Prop := ReflTransGen Step

/-- A call that nobody disturbs returns what the registry does with it. -/
theorem run_call {r : Registry} (hr : r.Quiet) {request : PortRequest} (hvain : ¬request.Vain) :
    ∃ ticket? served, Run ⟨r, [], []⟩
      ⟨(r.call request).2, [⟨request, .returned ticket? (r.call request).1⟩], served⟩ := by
  obtain ⟨⟨⟨pool, answers, gone⟩, mailbox, capacity, stopping, reachable, ended⟩, next⟩ := r
  obtain ⟨hmailbox, hanswers, hgone, hroom⟩ := hr
  simp only at hmailbox hanswers hgone hroom
  subst hmailbox hanswers hgone
  cases ended with
  | true =>
    have hsubmit := @Registry.submit_of_finished
      ⟨⟨⟨pool, [], []⟩, [], capacity, stopping, reachable, true⟩, next⟩ rfl request
    have hbegun : Run _ _ := .single (.call ⟨⟨⟨⟨pool, [], []⟩, [], capacity, stopping, reachable,
      true⟩, next⟩, [], []⟩ request hvain)
    have hrefused := hbegun.tail (.refuse _ [] [] request _ rfl rfl hsubmit)
    simp only [Registry.call, hsubmit]
    exact ⟨none, [], hrefused⟩
  | false =>
    have hsent : Registry.submit ⟨⟨⟨pool, [], []⟩, [], capacity, stopping, reachable, false⟩, next⟩
        request = (some next, ⟨⟨⟨pool, [], []⟩, [⟨next, request⟩], capacity, stopping, reachable,
          false⟩, next + 1⟩) := by
      simp [Registry.submit, Actor.send?, Actor.post?, Actor.hasRoom, hroom]
    -- A turn of the arbiter is enough, after which it has ended or waits.
    obtain ⟨arbiter, hturn, hidle, hready⟩ : ∃ arbiter : Actor Arbiter PortCall,
        Actor.step? Arbiter.behavior ⟨⟨pool, [], []⟩, [⟨next, request⟩], capacity, stopping,
          reachable, false⟩ = some arbiter ∧ arbiter.step? Arbiter.behavior = none ∧
        ((arbiter.state.answers.lookup next).isSome ∨ arbiter.ended = true) := by
      cases stopping <;> cases reachable <;>
        simp [Actor.step?, Actor.finish, Arbiter.behavior, Arbiter.handle, Verdict.ends]
    have hcall : Registry.call ⟨⟨⟨pool, [], []⟩, [], capacity, stopping, reachable, false⟩, next⟩
        request = Registry.fetch ⟨arbiter, next + 1⟩ next := by
      simp only [Registry.call, hsent, Registry.settle, Actor.settle, List.length_singleton,
        Actor.steps, hturn, hidle]
    have hbegun : Run _ _ := .single (.call ⟨⟨⟨⟨pool, [], []⟩, [], capacity, stopping, reachable,
      false⟩, next⟩, [], []⟩ request hvain)
    have hserved := (hbegun.tail
      (.submit _ [] [] request next _ rfl (by simpa [Actor.hasRoom] using hroom) hsent)).tail
      (.turn _ arbiter hturn)
    rw [hcall]
    exact ⟨some next, _, hserved.tail (.receive _ [] [] request next rfl hready)⟩

/-- A registry that nobody has called yet. -/
def opening (pool : PortPool Key) : Desk := ⟨.ofPool pool, [], []⟩

/-! ## What a desk keeps -/

/-- The requests that were sent. -/
def known (r : Registry) (served : List Service) : List PortCall :=
  r.arbiter.mailbox ++ served.map (·.call)

/-- The tickets of the calls whose requests were sent. -/
def tickets (inquiries : List Inquiry) : List Nat := inquiries.filterMap (·.stage.ticket?)

/-- What was served agrees with the pool and with the answers that are there. -/
structure Booked (r : Registry) (served : List Service) : Prop where
  distinct : ((known r served).map (·.ticket)).Nodup
  below : ∀ c ∈ known r served, c.ticket < r.nextTicket
  closed : r.finished = true → r.arbiter.mailbox = []
  answers : ∀ e ∈ r.arbiter.state.answers,
    ∃ s ∈ served, s.call.ticket = e.1 ∧ s.answer = e.2 ∧ s.delivered = true
  /-- Who was delivered a port and has not released it holds it. -/
  held : ∀ owner p, Stands served owner p → r.pool.holder? p = some owner
  /-- A port that is delivered was delivered to nobody before who has not released it. -/
  once : ∀ before s after owner p, served = before ++ s :: after → s.Gives owner p →
    ∀ other, ¬Stands before other p

/-- What the caller knows is what the arbiter has done. -/
structure Traced (r : Registry) (served : List Service) (i : Inquiry) : Prop where
  below : ∀ ticket, i.stage.ticket? = some ticket → ticket < r.nextTicket
  request : ∀ c ∈ known r served, i.stage.ticket? = some c.ticket → c.request = i.request
  awaited : ∀ s ∈ served, i.stage = .sent s.call.ticket →
    r.answer? s.call.ticket = some s.answer
  told : ∀ ticket a, i.stage = .returned (some ticket) (some a) →
    ∃ s ∈ served, s.call.ticket = ticket ∧ s.answer = a ∧ s.delivered = true
  spared : ∀ a, i.stage = .returned none (some a) → i.request.Vain
  gone : ∀ ticket, i.stage = .vanished (some ticket) → ticket ∈ r.gone

structure Kept (d : Desk) : Prop where
  booked : Booked d.registry d.served
  traced : ∀ i ∈ d.inquiries, Traced d.registry d.served i
  own : (tickets d.inquiries).Nodup
  gone : ∀ ticket ∈ d.registry.gone, ∃ i ∈ d.inquiries, i.stage = .vanished (some ticket)

section

variable {r r' : Registry} {served : List Service}

/-! ### The ledger -/

namespace Booked

/-- Nothing was served, and no request was sent. -/
theorem of_quiet (h : Booked r served) (hmailbox : r'.arbiter.mailbox = r.arbiter.mailbox)
    (hnext : r.nextTicket ≤ r'.nextTicket) (hfinished : r'.finished = r.finished)
    (hanswers : r'.arbiter.state.answers ⊆ r.arbiter.state.answers) (hpool : r'.pool = r.pool) :
    Booked r' served := by
  have hknown : known r' served = known r served := congrArg (· ++ _) hmailbox
  constructor
  case distinct => exact hknown ▸ h.distinct
  case below => exact fun c hc => (h.below c (hknown ▸ hc)).trans_le hnext
  case closed => exact fun hended => hmailbox.trans (h.closed (hfinished ▸ hended))
  case answers => exact fun e he => h.answers e (hanswers he)
  case held => exact fun owner p hstands => hpool ▸ h.held owner p hstands
  case once => exact h.once

theorem submit (h : Booked r served) (hrunning : r.finished = false) (request : PortRequest) :
    Booked ⟨{ r.arbiter with mailbox := r.arbiter.mailbox ++ [⟨r.nextTicket, request⟩] },
      r.nextTicket + 1⟩ served := by
  have hperm : (known ⟨{ r.arbiter with
      mailbox := r.arbiter.mailbox ++ [⟨r.nextTicket, request⟩] }, r.nextTicket + 1⟩ served).Perm
      (⟨r.nextTicket, request⟩ :: known r served) := by
    simp only [known, List.append_assoc, List.singleton_append]
    exact List.perm_middle
  constructor
  case distinct =>
    rw [(hperm.map _).nodup_iff]
    refine List.nodup_cons.2 ⟨fun hmem => ?_, h.distinct⟩
    obtain ⟨c, hc, hticket⟩ := List.mem_map.1 hmem
    exact absurd hticket (h.below c hc).ne
  case below =>
    intro c hc
    rcases List.mem_cons.1 (hperm.subset hc) with rfl | hc
    · exact Nat.lt_succ_self _
    · exact (h.below c hc).trans (Nat.lt_succ_self _)
  case closed =>
    intro hended
    cases hrunning.symm.trans hended
  case answers => exact h.answers
  case held => exact h.held
  case once => exact h.once

/-- The arbiter has ended, and what was in the mailbox is lost. -/
theorem finish (h : Booked r served) :
    Booked { r with arbiter := { r.arbiter with mailbox := [], ended := true } } served := by
  have hsublist : (known { r with arbiter := { r.arbiter with mailbox := [], ended := true } }
      served).Sublist (known r served) := List.sublist_append_right _ _
  exact ⟨h.distinct.sublist (hsublist.map _), fun c hc => h.below c (hsublist.subset hc),
    fun _ => rfl, h.answers, h.held, h.once⟩

/-- The registry when the arbiter has served a request. -/
def after (r : Registry) (c : PortCall) (rest : List PortCall) : Registry :=
  { r with arbiter := { r.arbiter with
      state := (Arbiter.handle c r.arbiter.state).1, mailbox := rest } }

theorem known_after (served : List Service) {c : PortCall} {rest : List PortCall}
    (hmailbox : r.arbiter.mailbox = c :: rest) :
    (known (after r c rest) (served ++ [r.arbiter.state.service c])).Perm (known r served) := by
  simp only [known, hmailbox, after, List.map_append, ← List.append_assoc]
  exact List.perm_append_singleton _ _

theorem serve (h : Booked r served) {c : PortCall} {rest : List PortCall}
    (hrunning : r.finished = false) (hmailbox : r.arbiter.mailbox = c :: rest) :
    Booked (after r c rest) (served ++ [r.arbiter.state.service c]) := by
  have hperm := known_after served hmailbox
  constructor
  case distinct => exact (hperm.map _).nodup_iff.2 h.distinct
  case below => exact fun e he => h.below e (hperm.subset he)
  case closed =>
    intro hended
    cases hrunning.symm.trans hended
  case answers =>
    intro e he
    simp only [after, Arbiter.handle_eq] at he
    split at he
    · obtain ⟨s, hs, hs'⟩ := h.answers e he
      exact ⟨s, List.mem_append_left _ hs, hs'⟩
    · next hpresent =>
      rcases List.mem_append.1 he with he | he
      · obtain ⟨s, hs, hs'⟩ := h.answers e he
        exact ⟨s, List.mem_append_left _ hs, hs'⟩
      · rw [List.mem_singleton.1 he]
        refine ⟨_, List.mem_append_right _ List.mem_cons_self, rfl, rfl, ?_⟩
        simpa [Arbiter.service] using hpresent
  case held =>
    intro owner p hstands
    rcases stands_concat.1 hstands with hgives | ⟨hstands, hfrees⟩
    · exact (Arbiter.holder?_handle_of_gives hgives).2
    · exact Arbiter.holder?_handle_of_holder? (h.held owner p hstands) hfrees
  case once =>
    intro before s later owner p heq hgives other hstands
    rcases concat_eq_split heq with ⟨rfl, rfl, rfl⟩ | ⟨rest', rfl, hserved⟩
    · -- A port that is delivered was free, so nobody who was delivered it has it still.
      have hfree := (Arbiter.holder?_handle_of_gives hgives).1
      cases (h.held other p hstands).symm.trans hfree
    · exact h.once before s rest' owner p hserved hgives other hstands

end Booked

/-! ### The callers -/

namespace Traced

variable {served' : List Service} {i : Inquiry}

theorem mono (h : Traced r served i) (hnext : r.nextTicket ≤ r'.nextTicket)
    (hknown : ∀ c ∈ known r' served', c ∈ known r served ∨ r.nextTicket ≤ c.ticket)
    (hserved : served ⊆ served') (hgone : r.gone ⊆ r'.gone)
    (hawaited : ∀ s ∈ served', i.stage = .sent s.call.ticket →
      r'.answer? s.call.ticket = some s.answer) : Traced r' served' i := by
  constructor
  case below => exact fun ticket hticket => (h.below ticket hticket).trans_le hnext
  case request =>
    intro c hc hticket
    rcases hknown c hc with hc | hle
    · exact h.request c hc hticket
    · exact absurd (h.below c.ticket hticket) (by omega)
  case awaited => exact hawaited
  case told =>
    intro ticket a hstage
    obtain ⟨s, hs, hs'⟩ := h.told ticket a hstage
    exact ⟨s, hserved hs, hs'⟩
  case spared => exact h.spared
  case gone => exact fun ticket hstage => hgone (h.gone ticket hstage)

/-- Nothing was served, and no other request was sent. -/
theorem of_quiet (h : Traced r served i) (hmailbox : r'.arbiter.mailbox = r.arbiter.mailbox)
    (hnext : r.nextTicket ≤ r'.nextTicket) (hgone : r.gone ⊆ r'.gone)
    (hanswer : ∀ ticket, i.stage = .sent ticket → r'.answer? ticket = r.answer? ticket) :
    Traced r' served i := by
  have hknown : known r' served = known r served := congrArg (· ++ _) hmailbox
  refine h.mono hnext (fun c hc => .inl (hknown ▸ hc)) (List.Subset.refl _) hgone
    fun s hs hstage => ?_
  rw [hanswer _ hstage]
  exact h.awaited s hs hstage

/-- Who never got a ticket knows of no answer of the arbiter. -/
theorem of_unsent (hticket : i.stage.ticket? = none)
    (hspared : ∀ a, i.stage = .returned none (some a) → i.request.Vain) : Traced r served i := by
  have hnot {ticket : Nat} (h : i.stage.ticket? = some ticket) : False := by
    rw [hticket] at h
    cases h
  constructor
  case below => exact fun ticket h => (hnot h).elim
  case request => exact fun c _ h => (hnot h).elim
  case awaited => exact fun s _ h => (hnot (congrArg InquiryStage.ticket? h)).elim
  case told => exact fun ticket a h => (hnot (congrArg InquiryStage.ticket? h)).elim
  case spared => exact hspared
  case gone => exact fun ticket h => (hnot (congrArg InquiryStage.ticket? h)).elim

end Traced

/-! ### Tickets -/

variable {before after inquiries : List Inquiry} {i j : Inquiry}

theorem tickets_replaced (h : j.stage.ticket? = i.stage.ticket?) :
    tickets (before ++ j :: after) = tickets (before ++ i :: after) := by
  simp [tickets, List.filterMap_append, List.filterMap_cons, h]

/-- No two calls have one ticket. -/
theorem eq_of_ticket (h : (tickets inquiries).Nodup) (hi : i ∈ inquiries) (hj : j ∈ inquiries)
    {ticket : Nat} (hiticket : i.stage.ticket? = some ticket)
    (hjticket : j.stage.ticket? = some ticket) : i = j := by
  induction inquiries with
  | nil => cases hi
  | cons k inquiries ih =>
    have hmem {l : Inquiry} (hl : l ∈ inquiries) (hticket : l.stage.ticket? = some ticket) :
        ticket ∈ tickets inquiries := List.mem_filterMap.2 ⟨l, hl, hticket⟩
    have htail : (tickets inquiries).Nodup :=
      h.sublist ((List.sublist_cons_self k inquiries).filterMap _)
    have hhead (hticket : k.stage.ticket? = some ticket) : ticket ∉ tickets inquiries := by
      rw [tickets, List.filterMap_cons, hticket] at h
      exact (List.nodup_cons.1 h).1
    rcases List.mem_cons.1 hi with hik | hi' <;> rcases List.mem_cons.1 hj with hjk | hj'
    · rw [hik, hjk]
    · exact absurd (hmem hj' hjticket) (hhead (hik ▸ hiticket))
    · exact absurd (hmem hi' hiticket) (hhead (hjk ▸ hjticket))
    · exact ih htail hi' hj'

/-- To take one answer leaves the others. -/
theorem answer?_fetch {ticket other : Nat} (h : other ≠ ticket) :
    (r.fetch ticket).2.answer? other = r.answer? other := by
  simp only [Registry.answer?, Registry.fetch]
  induction r.arbiter.state.answers with
  | nil => rfl
  | cons e es ih =>
    obtain ⟨t, a⟩ := e
    rw [List.filter_cons]
    by_cases ht : t = ticket
    · subst ht
      simpa [List.lookup_cons, beq_false_of_ne h] using ih
    · simp only [bne_iff_ne, ne_eq, ht, not_false_eq_true, if_true, List.lookup_cons, ih]

end

/-! ## Steps -/

namespace Kept

variable {d : Desk} {before after : List Inquiry} {i j : Inquiry}

/-- A call begins, or is over as soon as it has begun. -/
theorem add (h : d.Kept) (hticket : j.stage.ticket? = none)
    (hspared : ∀ a, j.stage = .returned none (some a) → j.request.Vain) :
    Kept { d with inquiries := d.inquiries ++ [j] } := by
  constructor
  case booked => exact h.booked
  case traced =>
    intro k hk
    rcases List.mem_append.1 hk with hk | hk
    · exact h.traced k hk
    · rw [List.mem_singleton.1 hk]
      exact .of_unsent hticket hspared
  case own =>
    have heq : tickets (d.inquiries ++ [j]) = tickets d.inquiries := by
      simp [tickets, List.filterMap_append, hticket]
    exact heq ▸ h.own
  case gone =>
    intro ticket hticket
    obtain ⟨k, hk, hstage⟩ := h.gone ticket hticket
    exact ⟨k, List.mem_append_left _ hk, hstage⟩

/-- A call goes on, and keeps its ticket if it has one. -/
theorem replace (h : d.Kept) (hinquiries : d.inquiries = before ++ i :: after)
    (hopen : ∀ ticket, i.stage ≠ .vanished (some ticket))
    (hticket : j.stage.ticket? = i.stage.ticket?) {r : Registry} (hbooked : Booked r d.served)
    (hj : Traced r d.served j)
    (hothers : ∀ k ∈ before ++ after, Traced d.registry d.served k → Traced r d.served k)
    (hgone : ∀ ticket ∈ r.gone, ticket ∈ d.registry.gone ∨ j.stage = .vanished (some ticket)) :
    Kept ⟨r, before ++ j :: after, d.served⟩ := by
  constructor
  case booked => exact hbooked
  case traced =>
    intro k hk
    rcases eq_or_mem_of_mem hk with rfl | hk
    · exact hj
    · exact hothers k hk (h.traced k (hinquiries ▸ mem_of_mem_others hk))
  case own =>
    rw [tickets_replaced hticket, ← hinquiries]
    exact h.own
  case gone =>
    intro ticket hmem
    rcases hgone ticket hmem with hmem | hstage
    · obtain ⟨k, hk, hstage⟩ := h.gone ticket hmem
      rw [hinquiries] at hk
      rcases eq_or_mem_of_mem hk with rfl | hk
      · exact absurd hstage (hopen ticket)
      · exact ⟨k, mem_of_mem_others hk, hstage⟩
    · exact ⟨j, List.mem_append_right _ List.mem_cons_self, hstage⟩

theorem submit (h : d.Kept) {request : PortRequest} {ticket : Nat} {r : Registry}
    (hinquiries : d.inquiries = before ++ ⟨request, .waiting⟩ :: after)
    (hroom : d.registry.arbiter.hasRoom = true)
    (hsubmit : d.registry.submit request = (some ticket, r)) :
    Kept ⟨r, before ++ ⟨request, .sent ticket⟩ :: after, d.served⟩ := by
  obtain ⟨hrunning, rfl, rfl⟩ := Registry.submit_of_room hroom hsubmit
  have hbooked := h.booked.submit hrunning request
  have hold {k : Inquiry} (hk : k ∈ before ++ after) :
      Traced d.registry d.served k := h.traced k (hinquiries ▸ mem_of_mem_others hk)
  have hknown {c : PortCall} (hc : c ∈ known ⟨{ d.registry.arbiter with
      mailbox := d.registry.arbiter.mailbox ++ [⟨d.registry.nextTicket, request⟩] },
      d.registry.nextTicket + 1⟩ d.served) :
      c ∈ known d.registry d.served ∨ c = ⟨d.registry.nextTicket, request⟩ := by
    simp only [known, List.mem_append, List.mem_singleton] at hc ⊢
    tauto
  constructor
  case booked => exact hbooked
  case traced =>
    intro k hk
    rcases eq_or_mem_of_mem hk with rfl | hk
    · constructor
      case below =>
        rintro _ ⟨⟩
        exact Nat.lt_succ_self _
      case request =>
        intro c hc hticket
        rcases hknown hc with hc | rfl
        · exact absurd (Option.some.inj hticket).symm (h.booked.below c hc).ne
        · rfl
      case awaited =>
        intro s hs hstage
        have hlt := h.booked.below s.call
          (List.mem_append_right _ (List.mem_map_of_mem (f := Service.call) hs))
        exact absurd (InquiryStage.sent.inj hstage).symm hlt.ne
      all_goals
        intros
        contradiction
    · refine (hold hk).mono (Nat.le_succ _) (fun c hc => ?_) (List.Subset.refl _)
        (List.Subset.refl _) (hold hk).awaited
      rcases hknown hc with hc | rfl
      · exact .inl hc
      · exact .inr le_rfl
  case own =>
    have hperm : (tickets (before ++ ⟨request, .sent d.registry.nextTicket⟩ :: after)).Perm
        (d.registry.nextTicket :: tickets (before ++ after)) := by
      simp only [tickets, List.filterMap_append, List.filterMap_cons, InquiryStage.ticket?]
      exact List.perm_middle
    refine hperm.nodup_iff.2 (List.nodup_cons.2 ⟨fun hmem => ?_, ?_⟩)
    · obtain ⟨k, hk, hticket⟩ := List.mem_filterMap.1 hmem
      exact absurd ((hold hk).below _ hticket) (lt_irrefl _)
    · have hown := h.own
      rw [hinquiries] at hown
      exact hown.sublist (((List.sublist_cons_self _ _).append_left before).filterMap _)
  case gone =>
    intro ticket hmem
    obtain ⟨k, hk, hstage⟩ := h.gone ticket hmem
    rw [hinquiries] at hk
    rcases eq_or_mem_of_mem hk with rfl | hk
    · cases hstage
    · exact ⟨k, mem_of_mem_others hk, hstage⟩

theorem refuse (h : d.Kept) {request : PortRequest} {r : Registry}
    (hinquiries : d.inquiries = before ++ ⟨request, .waiting⟩ :: after)
    (hfinished : d.registry.finished = true) (hsubmit : d.registry.submit request = (none, r)) :
    Kept ⟨r, before ++ ⟨request, .returned none none⟩ :: after, d.served⟩ := by
  rw [Registry.submit_of_finished hfinished] at hsubmit
  obtain rfl := (Prod.mk.inj hsubmit).2
  refine h.replace hinquiries ?pending ?ticket ?booked ?traced ?others ?gone
  case pending => exact nofun
  case ticket => rfl
  case booked => exact h.booked.of_quiet rfl (Nat.le_succ _) rfl (List.Subset.refl _) rfl
  case traced => exact .of_unsent rfl nofun
  case others =>
    exact fun k _ hk => hk.of_quiet rfl (Nat.le_succ _) (List.Subset.refl _) fun _ _ => rfl
  case gone => exact fun ticket hmem => .inl hmem

theorem receive (h : d.Kept) {request : PortRequest} {ticket : Nat}
    (hinquiries : d.inquiries = before ++ ⟨request, .sent ticket⟩ :: after) :
    Kept ⟨(d.registry.fetch ticket).2,
      before ++ ⟨request, .returned (some ticket) (d.registry.fetch ticket).1⟩ :: after,
      d.served⟩ := by
  have hmem : (⟨request, .sent ticket⟩ : Inquiry) ∈ d.inquiries := by simp [hinquiries]
  have hi := h.traced _ hmem
  refine h.replace hinquiries ?pending ?ticket ?booked ?traced ?others ?gone
  case pending => exact nofun
  case ticket => rfl
  case booked => exact h.booked.of_quiet rfl le_rfl rfl (List.filter_subset_self _) rfl
  case traced =>
    constructor
    case below => exact hi.below
    case request => exact hi.request
    case awaited => exact nofun
    case told =>
      intro t a hstage
      obtain ⟨rfl, hanswer⟩ := InquiryStage.returned.inj hstage |>.imp_left Option.some.inj
      obtain ⟨l₁, l₂, hsplit, -⟩ := List.lookup_eq_some_iff.1 hanswer
      exact h.booked.answers (ticket, a) (by rw [hsplit]; simp)
    case spared => exact nofun
    case gone => exact nofun
  case others =>
    intro k hk htraced
    refine htraced.of_quiet rfl le_rfl (List.Subset.refl _) fun t hstage => answer?_fetch ?_
    rintro rfl
    -- Another call that waits for its answer has another ticket.
    have hown := h.own
    rw [hinquiries] at hown
    simp only [tickets, List.filterMap_append, List.filterMap_cons, InquiryStage.ticket?] at hown
    refine (List.nodup_cons.1 (List.perm_middle.nodup_iff.1 hown)).1 ?_
    rw [← List.filterMap_append]
    exact List.mem_filterMap.2 ⟨k, hk, by rw [hstage]⟩
  case gone => exact fun t ht => .inl ht

theorem withdraw (h : d.Kept) {request : PortRequest}
    (hinquiries : d.inquiries = before ++ ⟨request, .waiting⟩ :: after) :
    Kept { d with inquiries := before ++ ⟨request, .vanished none⟩ :: after } := by
  refine h.replace hinquiries ?pending ?ticket ?booked ?traced ?others ?gone
  case pending => exact nofun
  case ticket => rfl
  case booked => exact h.booked
  case traced => exact .of_unsent rfl nofun
  case others => exact fun _ _ hk => hk
  case gone => exact fun ticket hmem => .inl hmem

theorem vanish (h : d.Kept) {request : PortRequest} {ticket : Nat}
    (hinquiries : d.inquiries = before ++ ⟨request, .sent ticket⟩ :: after) :
    Kept ⟨d.registry.forsake ticket, before ++ ⟨request, .vanished (some ticket)⟩ :: after,
      d.served⟩ := by
  have hmem : (⟨request, .sent ticket⟩ : Inquiry) ∈ d.inquiries := by simp [hinquiries]
  have hi := h.traced _ hmem
  refine h.replace hinquiries ?pending ?ticket ?booked ?traced ?others ?gone
  case pending => exact nofun
  case ticket => rfl
  case booked => exact h.booked.of_quiet rfl le_rfl rfl (List.Subset.refl _) rfl
  case traced =>
    constructor
    case below => exact hi.below
    case request => exact hi.request
    case gone =>
      rintro _ ⟨⟩
      exact List.mem_cons_self
    all_goals exact nofun
  case others =>
    exact fun k _ hk => hk.of_quiet rfl le_rfl (List.subset_cons_self _ _) fun _ _ => rfl
  case gone =>
    intro t ht
    rcases List.mem_cons.1 ht with rfl | ht
    · exact .inr rfl
    · exact .inl ht

/-- The arbiter ends. -/
theorem finish (h : d.Kept) :
    Kept { d with registry :=
      { d.registry with arbiter := { d.registry.arbiter with mailbox := [], ended := true } } } := by
  constructor
  case booked => exact h.booked.finish
  case traced =>
    intro i hi
    have hi := h.traced i hi
    exact hi.mono le_rfl (fun c hc => .inl (List.mem_append_right _ hc)) (List.Subset.refl _)
      (List.Subset.refl _) hi.awaited
  case own => exact h.own
  case gone => exact h.gone

/-- The arbiter serves a request. -/
theorem serve (h : d.Kept) {c : PortCall} {rest : List PortCall}
    (hrunning : d.registry.finished = false) (hmailbox : d.registry.arbiter.mailbox = c :: rest) :
    Kept { d with
      registry := Booked.after d.registry c rest
      served := d.served ++ [d.registry.arbiter.state.service c] } := by
  have hperm := Booked.known_after d.served hmailbox
  have hgone : (Booked.after d.registry c rest).gone = d.registry.gone := by
    simp only [Registry.gone, Booked.after, Arbiter.handle_eq]
    split <;> rfl
  constructor
  case booked => exact h.booked.serve hrunning hmailbox
  case traced =>
    intro i hi
    have htraced := h.traced i hi
    refine htraced.mono le_rfl (fun e he => .inl (hperm.subset he))
      (List.subset_append_left _ _) (hgone ▸ List.Subset.refl _) fun s hs hstage => ?_
    rcases List.mem_append.1 hs with hs | hs
    · have hanswer : d.registry.arbiter.state.answers.lookup s.call.ticket = some s.answer :=
        htraced.awaited s hs hstage
      simp only [Registry.answer?, Booked.after, Arbiter.handle_eq]
      split
      · exact hanswer
      · rw [List.lookup_append, hanswer, Option.some_or]
    · obtain rfl := List.mem_singleton.1 hs
      -- The caller waits, so it is not gone, and there is no answer with its ticket yet.
      have hpresent : ¬d.registry.arbiter.state.gone.contains c.ticket = true := by
        intro hmem
        obtain ⟨j, hj, hvanished⟩ := h.gone c.ticket (List.contains_iff_mem.1 hmem)
        obtain rfl := eq_of_ticket h.own hi hj (by rw [hstage]; rfl) (by rw [hvanished]; rfl)
        rw [hvanished] at hstage
        cases hstage
      have hnone : d.registry.arbiter.state.answers.lookup c.ticket = none := by
        refine List.lookup_eq_none_iff.2 fun e he => ?_
        obtain ⟨s, hs, hticket, -⟩ := h.booked.answers e he
        have hdistinct := h.booked.distinct
        simp only [known, hmailbox, List.cons_append, List.map_cons, List.nodup_cons] at hdistinct
        rw [bne_iff_ne, ← hticket]
        rintro heq
        refine hdistinct.1 (heq ▸ List.mem_map_of_mem (f := PortCall.ticket) ?_)
        exact List.mem_append_right _ (List.mem_map_of_mem (f := Service.call) hs)
      simp only [Registry.answer?, Booked.after, Arbiter.handle_eq, if_neg hpresent,
        Arbiter.service]
      rw [List.lookup_append, hnone, Option.none_or, List.lookup_cons_self]
  case own => exact h.own
  case gone =>
    rw [hgone]
    exact h.gone

theorem step {d' : Desk} (h : d.Kept) (hstep : Step d d') : d'.Kept := by
  cases hstep with
  | call request hvain => exact h.add rfl nofun
  | spare owner => exact h.add rfl fun _ _ => ⟨owner, rfl⟩
  | submit before after request ticket r hinquiries hroom hsubmit =>
    exact h.submit hinquiries hroom hsubmit
  | refuse before after request r hinquiries hfinished hsubmit =>
    exact h.refuse hinquiries hfinished hsubmit
  | turn arbiter hturn =>
    rcases Registry.turn_cases hturn with ⟨hdue, rfl⟩ | ⟨c, rest, hrunning, hmailbox, hdue, rfl⟩
    · rw [hdue, List.append_nil]
      exact h.finish
    · rw [hdue]
      exact h.serve hrunning hmailbox
  | receive before after request ticket hinquiries hready => exact h.receive hinquiries
  | withdraw before after request hinquiries => exact h.withdraw hinquiries
  | vanish before after request ticket hinquiries => exact h.vanish hinquiries
  | stop =>
    refine ⟨h.booked.of_quiet rfl le_rfl rfl (List.Subset.refl _) rfl, fun i hi => ?_, h.own,
      h.gone⟩
    exact (h.traced i hi).of_quiet rfl le_rfl (List.Subset.refl _) fun _ _ => rfl

theorem run {d' : Desk} (h : d.Kept) (hrun : Run d d') : d'.Kept := by
  induction hrun with
  | refl => exact h
  | tail _ hstep ih => exact ih.step hstep

end Kept

theorem kept_opening (pool : PortPool Key) : (opening pool).Kept where
  booked :=
    { distinct := List.nodup_nil
      below := nofun
      closed := nofun
      answers := nofun
      held := by
        rintro owner p ⟨before, s, after, heq, -⟩
        exact absurd heq (by simp [opening])
      once := by
        rintro before s after owner p heq
        exact absurd heq (by simp [opening]) }
  traced := nofun
  own := List.nodup_nil
  gone := nofun

/-! ## What callers can rely on -/

/-- The request of the call was not served. -/
def Unserved (d : Desk) (i : Inquiry) : Prop :=
  ∀ s ∈ d.served, i.stage.ticket? ≠ some s.call.ticket

/-- The call has returned that the registry has stopped, or comes to know that when it goes on. -/
def Stopped (d : Desk) (i : Inquiry) : Prop :=
  match i.stage with
  | .waiting => (d.registry.submit i.request).1 = none
  | .sent ticket => (d.registry.fetch ticket).1 = none
  | .returned _ answer? => answer? = none
  | .vanished _ => True

structure Honest (d : Desk) : Prop where
  /-- A port that was delivered is held by its owner as long as no release of it by that owner was
  served. -/
  held : ∀ owner p, Stands d.served owner p → d.registry.pool.holder? p = some owner
  /-- A port that is delivered was delivered to nobody before without being released since. -/
  once : ∀ before s after owner p, d.served = before ++ s :: after → s.Gives owner p →
    ∀ other, ¬Stands before other p
  /-- An answer that a call has returned is what the arbiter has delivered to it. -/
  told : ∀ i ∈ d.inquiries, ∀ ticket a, i.stage = .returned (some ticket) (some a) →
    ∃ s ∈ d.served, s.call = ⟨ticket, i.request⟩ ∧ s.answer = a ∧ s.delivered = true
  /-- A call that waits is going to return what the arbiter has answered, if it has. -/
  awaited : ∀ i ∈ d.inquiries, ∀ s ∈ d.served, i.stage = .sent s.call.ticket →
    (d.registry.fetch s.call.ticket).1 = some s.answer
  /-- No two calls have one ticket. -/
  own : (tickets d.inquiries).Nodup
  /-- To serve an allocation for a caller who went away leaves every port with its holder. -/
  vanished : ∀ d' s, Step d d' → d'.served = d.served ++ [s] →
    ∀ i ∈ d.inquiries, i.stage = .vanished (some s.call.ticket) →
      ∀ owner, i.request = .allocate owner → d'.registry.pool.holder? = d.registry.pool.holder?
  /-- A release by one owner frees no port of another one. -/
  others : ∀ d' s, Step d d' → d'.served = d.served ++ [s] →
    ∀ other ports, s.call.request = .release other ports →
      ∀ owner p, owner ≠ other → d.registry.pool.holder? p = some owner →
        d'.registry.pool.holder? p = some owner
  /-- When the arbiter has ended, calls that it has not served return that it has stopped. -/
  stopped : d.registry.finished = true → ∀ i ∈ d.inquiries, ¬i.request.Vain → d.Unserved i →
    d.Stopped i

/-- A step serves nothing and leaves the pool, or serves the request that has waited longest. -/
theorem Step.served_cases {d d' : Desk} (hstep : Step d d') :
    (d'.served = d.served ∧ d'.registry.pool = d.registry.pool) ∨
    ∃ c rest, d.registry.arbiter.mailbox = c :: rest ∧
      d'.served = d.served ++ [d.registry.arbiter.state.service c] ∧
        d'.registry.pool = (Arbiter.handle c d.registry.arbiter.state).1.pool := by
  cases hstep with
  | submit before after request ticket r hinquiries hroom hsubmit =>
    obtain ⟨-, -, rfl⟩ := Registry.submit_of_room hroom hsubmit
    exact .inl ⟨rfl, rfl⟩
  | refuse before after request r hinquiries hfinished hsubmit =>
    rw [Registry.submit_of_finished hfinished] at hsubmit
    obtain rfl := (Prod.mk.inj hsubmit).2
    exact .inl ⟨rfl, rfl⟩
  | turn arbiter hturn =>
    rcases Registry.turn_cases hturn with ⟨hdue, rfl⟩ | ⟨c, rest, -, hmailbox, hdue, rfl⟩
    · exact .inl ⟨by rw [hdue, List.append_nil], rfl⟩
    · exact .inr ⟨c, rest, hmailbox, by rw [hdue], rfl⟩
  | _ => exact .inl ⟨rfl, rfl⟩

theorem Step.serves {d d' : Desk} (hstep : Step d d') {s : Service}
    (hs : d'.served = d.served ++ [s]) : ∃ c rest, d.registry.arbiter.mailbox = c :: rest ∧
      s = d.registry.arbiter.state.service c ∧
        d'.registry.pool = (Arbiter.handle c d.registry.arbiter.state).1.pool := by
  rcases hstep.served_cases with ⟨hsame, -⟩ | ⟨c, rest, hmailbox, hserved, hpool⟩
  · have hlength := congrArg List.length (hsame.symm.trans hs)
    simp at hlength
  · have heq := List.append_cancel_left (hs.symm.trans hserved)
    exact ⟨c, rest, hmailbox, List.singleton_inj.1 heq, hpool⟩

/-- Who holds a port at the beginning holds it, and it is delivered to nobody, until a release of it
by that owner is served. -/
theorem held_of_start {start d : Desk} (hrun : Run start d) (hserved : start.served = [])
    {owner : Key} {p : Port} (hp : start.registry.pool.holder? p = some owner)
    (hfrees : ∀ s ∈ d.served, ¬s.Frees owner p) : d.registry.pool.holder? p = some owner ∧
      ∀ s ∈ d.served, ∀ other, ¬s.Gives other p := by
  induction hrun with
  | refl =>
    rw [hserved]
    exact ⟨hp, nofun⟩
  | @tail d d' _ hstep ih =>
    rcases hstep.served_cases with ⟨hsame, hpool⟩ | ⟨c, rest, -, hmore, hpool⟩
    · rw [hsame, hpool]
      exact ih (hsame ▸ hfrees)
    · rw [hmore] at hfrees ⊢
      obtain ⟨hheld, hgives⟩ := ih fun s hs => hfrees s (List.mem_append_left _ hs)
      refine ⟨?_, fun s hs other hgiven => ?_⟩
      · rw [hpool]
        refine Arbiter.holder?_handle_of_holder? hheld (hfrees _ ?_)
        exact List.mem_append_right _ List.mem_cons_self
      · rcases List.mem_append.1 hs with hs | hs
        · exact hgives s hs other hgiven
        · rw [List.mem_singleton.1 hs] at hgiven
          cases hheld.symm.trans (Arbiter.holder?_handle_of_gives hgiven).1

theorem Kept.honest {d : Desk} (h : d.Kept) : d.Honest := by
  constructor
  case held => exact h.booked.held
  case once => exact h.booked.once
  case told =>
    intro i hi ticket a hstage
    obtain ⟨s, hs, rfl, ha, hdelivered⟩ := (h.traced i hi).told ticket a hstage
    refine ⟨s, hs, ?_, ha, hdelivered⟩
    have hrequest := (h.traced i hi).request s.call
      (List.mem_append_right _ (List.mem_map_of_mem (f := Service.call) hs)) (by rw [hstage]; rfl)
    rw [← hrequest]
  case awaited => exact fun i hi s hs hstage => (h.traced i hi).awaited s hs hstage
  case own => exact h.own
  case vanished =>
    intro d' s hstep hs i hi hstage owner hrequest
    obtain ⟨c, rest, hmailbox, rfl, hpool⟩ := hstep.serves hs
    have hc : c ∈ known d.registry d.served :=
      List.mem_append_left _ (hmailbox ▸ List.mem_cons_self)
    have hcall := (h.traced i hi).request c hc (by rw [hstage]; rfl)
    rw [hpool]
    exact Arbiter.holder?_handle_of_gone (hcall.trans hrequest) ((h.traced i hi).gone _ hstage)
  case others =>
    intro d' s hstep hs other ports hrequest owner p hne hp
    obtain ⟨c, rest, hmailbox, rfl, hpool⟩ := hstep.serves hs
    rw [hpool]
    refine Arbiter.holder?_handle_of_holder? hp ?_
    rintro ⟨ports', hrequest', -⟩
    exact hne (PortRequest.release.inj (hrequest'.symm.trans hrequest)).1
  case stopped =>
    intro hfinished i hi hvain hunserved
    obtain ⟨request, stage⟩ := i
    have htraced := h.traced _ hi
    cases stage with
    | waiting => exact congrArg Prod.fst (Registry.submit_of_finished hfinished request)
    | sent ticket =>
      refine List.lookup_eq_none_iff.2 fun e he => bne_iff_ne.2 ?_
      rintro rfl
      obtain ⟨s, hs, hticket, -⟩ := h.booked.answers e he
      exact hunserved s hs (by rw [hticket]; rfl)
    | returned ticket? answer? =>
      cases answer? with
      | none => rfl
      | some a =>
        cases ticket? with
        | none => exact absurd (htraced.spared a rfl) hvain
        | some ticket =>
          obtain ⟨s, hs, hticket, -⟩ := htraced.told ticket a rfl
          exact absurd (congrArg some hticket.symm) (hunserved s hs)
    | vanished ticket? => trivial

/-- Whatever calls are made and however they fall among each other, ports stay with those that they
were delivered to, and callers are told what the arbiter has done or that it has stopped. -/
theorem honest_of_reachable {pool : PortPool Key} {d : Desk} (h : Run (opening pool) d) :
    d.Honest :=
  ((kept_opening pool).run h).honest

/-- One caller gets a port, and another one goes away before it is served. It has no port to
release then, and a third caller comes when the arbiter was told to stop. -/
theorem honest_closing :
    ∃ d, Run (opening (Sample.registry []).pool) d ∧
      (d.registry.finished = true ∧ Stands d.served ⟨Sample.ns, "north"⟩ 20000 ∧
        ∃ i ∈ d.inquiries, i.request = .available ∧ d.Stopped i) ∧ d.Honest := by
  have hvain {owner} : ¬(PortRequest.allocate owner).Vain := by
    rintro ⟨_, ⟨⟩⟩
  have hstart : Run (opening (Sample.registry []).pool) (opening (Sample.registry []).pool) := .refl
  have hgiven := (((hstart.tail (.call _ (.allocate ⟨Sample.ns, "north"⟩) hvain)).tail
    (.submit _ [] [] _ _ _ rfl rfl rfl)).tail (.turn _ _ rfl)).tail
    (.receive _ [] [] _ _ rfl (.inl rfl))
  have hgone := (((hgiven.tail (.call _ (.allocate ⟨Sample.ns, "south"⟩) hvain)).tail
    (.submit _ [_] [] _ _ _ rfl rfl rfl)).tail (.vanish _ [_] [] _ _ rfl)).tail (.turn _ _ rfl)
  have hreleased := ((hgone.tail (.call _ (.release ⟨Sample.ns, "south"⟩ [20000, 20001])
    (by rintro ⟨_, ⟨⟩⟩))).tail (.submit _ [_, _] [] _ _ _ rfl rfl rfl)).tail (.turn _ _ rfl)
  have hclosed := (((hreleased.tail (.stop _)).tail
    (.call _ .available (by rintro ⟨_, ⟨⟩⟩))).tail (.submit _ [_, _, _] [] _ _ _ rfl rfl rfl)).tail
    (.turn _ _ rfl)
  refine ⟨_, hclosed, ⟨rfl, ?stands, ?stopped⟩, honest_of_reachable hclosed⟩
  case stands =>
    refine ⟨[], _, _, rfl, ⟨rfl, rfl, rfl⟩, fun r hr => ?_⟩
    rintro ⟨ports, hrequest, -⟩
    rcases List.mem_cons.1 hr with rfl | hr
    · cases hrequest
    · rw [List.mem_singleton.1 hr] at hrequest
      exact absurd (PortRequest.release.inj hrequest).1 (by decide)
  case stopped => exact ⟨_, List.mem_append_right _ List.mem_cons_self, rfl, rfl⟩

end Desk

end GameFleet
