import MeshProbe.Network
import MeshProbe.Proofs.Action
import Mathlib.Logic.Relation

/-!
What comes of a request that a reply may lead on to another. Each of the requests that follow is
led to by the reply before it; the last one is the one whose reply leads nowhere, unless too many
have led on, and its reply is the answer. Main statement: `Network.send_spec`.
-/

namespace MeshProbe

/-! ### Waiting -/

/-- A time is before the limit, if there is one. -/
def InTime (limit : Option Nat) (time : Nat) : Prop :=
  ∀ bound ∈ limit, time < bound

namespace Delivery

variable {ε α : Type} {d : Delivery ε α} {limit : Option Nat} {late : ε} {start time : Nat} {a : α}

/-- Something is there when it is delivered, if that is in time. -/
theorem await_eq_ok_iff :
    d.await limit late start = (.ok a, time) ↔
      d.outcome = .ok a ∧ time = start + d.after ∧ InTime limit time := by
  unfold await InTime
  cases limit with
  | none => simp [eq_comm]
  | some bound =>
    simp only [Option.mem_some_iff, forall_eq']
    split
    · next hbound =>
      constructor
      · intro h
        obtain ⟨houtcome, rfl⟩ := Prod.mk.inj h
        exact ⟨houtcome, rfl, hbound⟩
      · rintro ⟨houtcome, rfl, -⟩
        rw [houtcome]
    · next hbound =>
      refine iff_of_false (by simp) ?_
      rintro ⟨-, rfl, hlt⟩
      exact hbound hlt

end Delivery

/-- The body of an answer is had when it comes to its end in time. -/
theorem Head.answer_body_eq_ok_iff {head : Head} {address : Url} {limit : Option Nat} {time : Nat}
    {body : Bytes} :
    (head.answer address limit time).body.outcome = .ok body ↔
      head.body.outcome = .ok body ∧ InTime limit (time + head.body.after) := by
  unfold answer
  cases hbody : head.body.await limit .timedOut time with
  | mk outcome finish =>
    dsimp only
    rw [mapError_eq_ok]
    constructor
    · rintro rfl
      obtain ⟨houtcome, rfl, hin⟩ := Delivery.await_eq_ok_iff.mp hbody
      exact ⟨houtcome, hin⟩
    · rintro ⟨houtcome, hin⟩
      have hthere : head.body.await limit .timedOut time = (.ok body, time + head.body.after) :=
        Delivery.await_eq_ok_iff.mpr ⟨houtcome, rfl, hin⟩
      exact (Prod.mk.inj (hbody.symm.trans hthere)).1

/-! ### From one request to the next -/

/-- A request that is about to be made: those made before it, the latest first, and how much of
the time limit is over. -/
structure Hop where
  before : List Request
  start : Nat
  request : Request

/-- A request goes where another one went. -/
def Request.SameServer (r r' : Request) : Prop :=
  r.address.host = r'.address.host ∧ r.address.effectivePort = r'.address.effectivePort

namespace Network

variable {net : Network} {limit : Option Nat} {p q : Hop} {time : Nat}

/-- The reply to a request begins in time, with a head. -/
def Heard (net : Network) (limit : Option Nat) (p : Hop) (head : Head) (time : Nat) : Prop :=
  (net.reply p.before p.request).outcome = .ok head ∧
    time = p.start + (net.reply p.before p.request).after ∧ InTime limit time

theorem Heard.unique {head head' : Head} {time' : Nat} (h : net.Heard limit p head time)
    (h' : net.Heard limit p head' time') : head' = head ∧ time' = time :=
  ⟨Except.ok.inj (h'.1.symm.trans h.1), h'.2.1.trans h.2.1.symm⟩

/-- The reply to a request leads on to another, which is made when that reply has come. -/
def LeadsTo (net : Network) (limit : Option Nat) (p q : Hop) : Prop :=
  ∃ head, net.Heard limit p head q.start ∧ p.request.next? head = some (.ok q.request) ∧
    q.before = p.request :: p.before

/-- A request is answered: its reply leads nowhere. -/
def AnsweredBy (net : Network) (limit : Option Nat) (p : Hop) (answer : Answer) : Prop :=
  ∃ head time, net.Heard limit p head time ∧ p.request.next? head = none ∧
    answer = head.answer p.request.address limit time

theorem AnsweredBy.unique {answer answer' : Answer} (h : net.AnsweredBy limit p answer)
    (h' : net.AnsweredBy limit p answer') : answer' = answer := by
  obtain ⟨head, time, hheard, -, rfl⟩ := h
  obtain ⟨head', time', hheard', -, rfl⟩ := h'
  obtain ⟨rfl, rfl⟩ := hheard.unique hheard'
  rfl

/-- A reply comes to its end in time, and leads nowhere else. -/
def Complete (net : Network) (limit : Option Nat) (p : Hop) (status : Nat) (body : Bytes) :
    Prop :=
  ∃ head time, net.Heard limit p head time ∧ p.request.next? head = none ∧
    head.status = status ∧ head.body.outcome = .ok body ∧ InTime limit (time + head.body.after)

/-- A request is the last of those that another comes to. -/
structure Ends (net : Network) (limit : Option Nat) (hops : Nat) (p last : Hop) : Prop where
  reached : Relation.ReflTransGen (net.LeadsTo limit) p last
  /-- It is not too far. -/
  near : last.before.length ≤ p.before.length + hops
  /-- It leads on only if it would lead too far. -/
  stops : ∀ next, net.LeadsTo limit last next → last.before.length = p.before.length + hops

theorem LeadsTo.rightUnique (net : Network) (limit : Option Nat) :
    Relator.RightUnique (net.LeadsTo limit) := by
  rintro p ⟨before, start, request⟩ ⟨before', start', request'⟩
    ⟨head, hheard, hnext, hbefore⟩ ⟨head', hheard', hnext', hbefore'⟩
  obtain ⟨rfl, hstart⟩ := hheard.unique hheard'
  obtain rfl : request' = request :=
    Except.ok.inj (Option.some.inj (hnext'.symm.trans hnext))
  dsimp only at hstart hbefore hbefore'
  rw [hstart, hbefore, hbefore']

theorem LeadsTo.not_answeredBy {answer : Answer} (h : net.LeadsTo limit p q) :
    ¬ net.AnsweredBy limit p answer := by
  rintro ⟨head, time, hheard, hnone, -⟩
  obtain ⟨head', hheard', hnext, -⟩ := h
  obtain ⟨rfl, -⟩ := hheard.unique hheard'
  exact nomatch hnone.symm.trans hnext

/-- A request that leads on hands the task over. -/
theorem Ends.head {hops : Nat} {last : Hop} (hstep : net.LeadsTo limit p q)
    (h : net.Ends limit hops q last) : net.Ends limit (hops + 1) p last := by
  obtain ⟨-, -, -, hbefore⟩ := id hstep
  have hlength : q.before.length + hops = p.before.length + (hops + 1) := by
    rw [hbefore, List.length_cons]
    omega
  exact ⟨h.reached.head hstep, hlength ▸ h.near, fun next hnext => hlength ▸ h.stops next hnext⟩

/-- A request that leads nowhere is the last one itself. -/
theorem Ends.refl (hops : Nat) (h : ∀ next, ¬ net.LeadsTo limit p next) :
    net.Ends limit hops p p :=
  ⟨.refl, Nat.le_add_right _ _, fun next hnext => absurd hnext (h next)⟩

section Follow

variable (net limit p)

/-- What making a request comes to, when it is the one after the others. -/
def outcomeOf (hops : Nat) : Except NetworkError Answer × Nat × Network :=
  follow limit hops p.start p.request { net with requests := p.before }

/-- The network after a request and those before it. -/
def afterMaking : Network :=
  { net with requests := p.request :: p.before }

end Follow

theorem outcomeOf_unheard (hops : Nat) (h : ∀ head time, ¬ net.Heard limit p head time) :
    ∃ e time, net.outcomeOf limit p hops = (.error e, time, net.afterMaking p) := by
  unfold outcomeOf follow
  dsimp only
  cases hreply : (net.reply p.before p.request).await limit .timedOut p.start with
  | mk outcome time =>
    cases outcome with
    | error cause => exact ⟨_, _, rfl⟩
    | ok head => exact absurd (Delivery.await_eq_ok_iff.mp hreply) (h head time)

/-- A reply that begins in time decides by where it leads. -/
theorem outcomeOf_heard {head : Head} (hops : Nat) (h : net.Heard limit p head time) :
    net.outcomeOf limit p hops =
      match p.request.next? head with
      | none => (.ok (head.answer p.request.address limit time), time, net.afterMaking p)
      | some next =>
        match hops, next with
        | 0, _ => (.error (.redirect p.request.address.render), time, net.afterMaking p)
        | _ + 1, .error e => (.error (.unusable e), time, net.afterMaking p)
        | hops + 1, .ok next => net.outcomeOf limit ⟨p.request :: p.before, time, next⟩ hops := by
  unfold outcomeOf
  rw [follow]
  dsimp only
  rw [Delivery.await_eq_ok_iff.mpr h]
  rfl

theorem outcomeOf_answered {head : Head} (hops : Nat) (hheard : net.Heard limit p head time)
    (hnext : p.request.next? head = none) :
    net.outcomeOf limit p hops =
      (.ok (head.answer p.request.address limit time), time, net.afterMaking p) := by
  rw [outcomeOf_heard hops hheard, hnext]

theorem outcomeOf_zero (h : net.LeadsTo limit p q) :
    ∃ e, net.outcomeOf limit p 0 = (.error e, q.start, net.afterMaking p) := by
  obtain ⟨head, hheard, hnext, -⟩ := h
  rw [outcomeOf_heard 0 hheard, hnext]
  exact ⟨_, rfl⟩

theorem outcomeOf_succ (hops : Nat) (h : net.LeadsTo limit p q) :
    net.outcomeOf limit p (hops + 1) = net.outcomeOf limit q hops := by
  obtain ⟨head, hheard, hnext, hbefore⟩ := h
  rw [outcomeOf_heard (hops + 1) hheard, hnext, ← hbefore]

/-- A reply that leads to what cannot be asked comes to nothing. -/
theorem outcomeOf_astray {head : Head} {e : Url.ParseError} (hops : Nat)
    (hheard : net.Heard limit p head time) (hnext : p.request.next? head = some (.error e)) :
    ∃ e, net.outcomeOf limit p hops = (.error e, time, net.afterMaking p) := by
  rw [outcomeOf_heard hops hheard, hnext]
  cases hops with
  | zero => exact ⟨_, rfl⟩
  | succ hops => exact ⟨_, rfl⟩

/-- A request that leads nowhere decides itself what it comes to. -/
theorem outcomeOf_of_not_leadsTo (hops : Nat) (h : ∀ next, ¬ net.LeadsTo limit p next) :
    (net.outcomeOf limit p hops).2.2 = net.afterMaking p ∧
      ∀ answer, (net.outcomeOf limit p hops).1 = .ok answer ↔ net.AnsweredBy limit p answer := by
  by_cases hheard : ∃ head time, net.Heard limit p head time
  · obtain ⟨head, time, hheard⟩ := hheard
    cases hnext : p.request.next? head with
    | none =>
      rw [outcomeOf_answered hops hheard hnext]
      refine ⟨rfl, fun answer => ⟨?_, ?_⟩⟩
      · rintro ⟨⟩
        exact ⟨head, time, hheard, hnext, rfl⟩
      · rintro ⟨head', time', hheard', -, rfl⟩
        obtain ⟨rfl, rfl⟩ := hheard.unique hheard'
        rfl
    | some next =>
      cases next with
      | ok next =>
        exact absurd ⟨head, hheard, hnext, rfl⟩ (h ⟨p.request :: p.before, time, next⟩)
      | error e =>
        obtain ⟨e, hout⟩ := outcomeOf_astray hops hheard hnext
        rw [hout]
        refine ⟨rfl, fun answer => iff_of_false nofun ?_⟩
        rintro ⟨head', time', hheard', hnone, -⟩
        obtain ⟨rfl, -⟩ := hheard.unique hheard'
        exact nomatch hnone.symm.trans hnext
  · have hnone : ∀ head time, ¬ net.Heard limit p head time := fun head time hhead =>
      hheard ⟨head, time, hhead⟩
    obtain ⟨e, time, hout⟩ := outcomeOf_unheard hops hnone
    rw [hout]
    refine ⟨rfl, fun answer => iff_of_false nofun ?_⟩
    rintro ⟨head, time, hhead, -⟩
    exact hnone head time hhead

/-- What making a request comes to is decided by the last of those that it comes to. The induction
is on how many of them may lead on. -/
theorem outcomeOf_spec (net : Network) (limit : Option Nat) (hops : Nat) (p : Hop) :
    ∃ last, net.Ends limit hops p last ∧
      (net.outcomeOf limit p hops).2.2 = net.afterMaking last ∧
      ∀ answer, (net.outcomeOf limit p hops).1 = .ok answer ↔
        net.AnsweredBy limit last answer := by
  induction hops generalizing p with
  | zero =>
    by_cases hleads : ∃ next, net.LeadsTo limit p next
    · obtain ⟨next, hnext⟩ := hleads
      obtain ⟨e, hout⟩ := outcomeOf_zero hnext
      refine ⟨p, ⟨.refl, Nat.le_refl _, fun _ _ => rfl⟩, by rw [hout], fun answer => ?_⟩
      rw [hout]
      exact iff_of_false nofun hnext.not_answeredBy
    · exact ⟨p, .refl 0 (not_exists.mp hleads), outcomeOf_of_not_leadsTo 0 (not_exists.mp hleads)⟩
  | succ hops ih =>
    by_cases hleads : ∃ next, net.LeadsTo limit p next
    · obtain ⟨next, hnext⟩ := hleads
      obtain ⟨last, hends, hlast⟩ := ih next
      rw [outcomeOf_succ hops hnext]
      exact ⟨last, hends.head hnext, hlast⟩
    · exact ⟨p, .refl _ (not_exists.mp hleads), outcomeOf_of_not_leadsTo _ (not_exists.mp hleads)⟩

/-- The request that a caller makes of a network. -/
def first (net : Network) (request : Request) : Hop :=
  ⟨net.requests, 0, request⟩

/-- What sending a request comes to: the requests made, and an answer exactly when the reply to
the last of them leads nowhere else. -/
theorem send_spec (net : Network) (limit : Option Nat) (request : Request) :
    ∃ last, net.Ends limit net.redirects (net.first request) last ∧
      (net.send limit request).2.2 = net.afterMaking last ∧
      ∀ answer, (net.send limit request).1 = .ok answer ↔ net.AnsweredBy limit last answer :=
  outcomeOf_spec net limit net.redirects (net.first request)

/-- The answers whose bodies are had are those of complete replies. -/
theorem exists_answeredBy_iff {status : Nat} {body : Bytes} :
    (∃ answer, net.AnsweredBy limit p answer ∧ answer.status = status ∧
      answer.body.outcome = .ok body) ↔ net.Complete limit p status body := by
  constructor
  · rintro ⟨_, ⟨head, time, hheard, hnext, rfl⟩, hstatus, hbody⟩
    obtain ⟨houtcome, hin⟩ := Head.answer_body_eq_ok_iff.mp hbody
    exact ⟨head, time, hheard, hnext, hstatus, houtcome, hin⟩
  · rintro ⟨head, time, hheard, hnext, hstatus, houtcome, hin⟩
    exact ⟨_, ⟨head, time, hheard, hnext, rfl⟩, hstatus,
      Head.answer_body_eq_ok_iff.mpr ⟨houtcome, hin⟩⟩

/-! ### How many requests there are -/

/-- A request that another comes to is made after it. -/
theorem suffix_of_reached (h : Relation.ReflTransGen (net.LeadsTo limit) p q) :
    q = p ∨ p.request :: p.before <:+ q.before := by
  induction h with
  | refl => exact Or.inl rfl
  | tail _ hstep ih =>
    obtain ⟨-, -, -, hbefore⟩ := hstep
    rw [hbefore]
    rcases ih with rfl | ih
    · exact Or.inr (List.suffix_refl _)
    · exact Or.inr (ih.trans (List.suffix_cons _ _))

/-- A request that another comes to, with no more requests before it, is that one. -/
theorem eq_of_reached (h : Relation.ReflTransGen (net.LeadsTo limit) p q)
    (hlength : q.before.length ≤ p.before.length) : q = p := by
  refine (suffix_of_reached h).resolve_right fun hsuffix => ?_
  have hmore := hsuffix.length_le
  rw [List.length_cons] at hmore
  omega

namespace Ends

variable {hops : Nat} {last other : Hop} (h : net.Ends limit hops p last)
include h

/-- There is one last request. -/
theorem unique (h' : net.Ends limit hops p other) : other = last := by
  have further {q r : Hop} (hq : net.Ends limit hops p q) (hr : net.Ends limit hops p r)
      (hqr : Relation.ReflTransGen (net.LeadsTo limit) q r) : r = q := by
    rcases hqr.cases_head with rfl | ⟨next, hnext, -⟩
    · rfl
    · have hlast := hq.stops next hnext
      exact eq_of_reached hqr (hlast ▸ hr.near)
  rcases h.reached.total_of_right_unique (LeadsTo.rightUnique net limit) h'.reached with hto | hto
  · exact further h h' hto
  · exact (further h' h hto).symm

/-- The requests made begin with the one that was asked for. -/
theorem suffix : p.request :: p.before <:+ last.request :: last.before := by
  rcases suffix_of_reached h.reached with rfl | hsuffix
  · exact List.suffix_refl _
  · exact hsuffix.trans (List.suffix_cons _ _)

/-- At least one request is made. -/
theorem requests_ne : last.request :: last.before ≠ p.before := by
  intro heq
  have hlength := h.suffix.length_le
  rw [heq] at hlength
  exact absurd hlength (Nat.not_succ_le_self _)

/-- A request is the only one exactly if it leads nowhere, or must not. -/
theorem eq_iff : last = p ↔ hops = 0 ∨ ∀ next, ¬ net.LeadsTo limit p next := by
  constructor
  · rintro rfl
    by_cases hleads : ∃ next, net.LeadsTo limit last next
    · obtain ⟨next, hnext⟩ := hleads
      have hstop := h.stops next hnext
      exact Or.inl (by omega)
    · exact Or.inr (not_exists.mp hleads)
  · rintro (rfl | hnone)
    · exact eq_of_reached h.reached h.near
    · rcases h.reached.cases_head with rfl | ⟨next, hnext, -⟩
      · rfl
      · exact absurd hnext (hnone next)

theorem requests_eq_iff :
    last.request :: last.before = p.request :: p.before ↔
      hops = 0 ∨ ∀ next, ¬ net.LeadsTo limit p next := by
  rw [← h.eq_iff]
  constructor
  · intro heq
    obtain ⟨-, hbefore⟩ := List.cons.inj heq
    exact eq_of_reached h.reached (Nat.le_of_eq (congrArg List.length hbefore))
  · rintro rfl
    rfl

end Ends

/-! ### What the requests that follow present -/

theorem next?_eq_some {request next : Request} {head : Head}
    (h : request.next? head = some (.ok next)) :
    head.status ∈ redirectStatuses ∧ head.location = some (.ok next.address) ∧
      next.method = request.method ∧ next.verifies = request.verifies ∧
      (next.authorization = [] ∨
        next.authorization = request.authorization ∧ next.SameServer request) := by
  unfold Request.next? at h
  split at h
  · next hstatus =>
    obtain ⟨e | address, hlocation, hmap⟩ := Option.map_eq_some_iff.mp h
    · cases hmap
    · obtain rfl := Except.ok.inj hmap
      refine ⟨List.contains_iff_mem.mp hstatus, hlocation, rfl, rfl, ?_⟩
      unfold Request.redirected
      dsimp only
      split
      · next hserver => exact Or.inr ⟨rfl, hserver⟩
      · exact Or.inl rfl
  · exact nomatch h

/-- A request that another comes to is of the same method, and presents what that one presents to
no other server. -/
theorem presents_of_reached (h : Relation.ReflTransGen (net.LeadsTo limit) p q) :
    q.request.method = p.request.method ∧
      (q.request.authorization = [] ∨ q.request.authorization = p.request.authorization ∧
        q.request.SameServer p.request) := by
  induction h with
  | refl => exact ⟨rfl, Or.inr ⟨rfl, rfl, rfl⟩⟩
  | tail _ hstep ih =>
    obtain ⟨head, -, hnext, -⟩ := hstep
    obtain ⟨-, -, hmethod, -, hpresents⟩ := next?_eq_some hnext
    obtain ⟨hmethod', hpresents'⟩ := ih
    refine ⟨hmethod.trans hmethod', ?_⟩
    rcases hpresents with hnone | ⟨hsame, hhost, hport⟩
    · exact Or.inl hnone
    · rcases hpresents' with hnone | ⟨hsame', hhost', hport'⟩
      · exact Or.inl (hsame.trans hnone)
      · exact Or.inr ⟨hsame.trans hsame', hhost.trans hhost', hport.trans hport'⟩

end Network

end MeshProbe
