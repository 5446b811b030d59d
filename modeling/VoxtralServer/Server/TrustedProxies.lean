import VoxtralServer.Server.HonestClients

/-!
# Peers behind trusted proxies

What the limits of the service mean for the clients themselves, when each request
arrives through as many proxies as `trusted_proxy_hops` says. A client may send any
`X-Forwarded-For` header it likes.

* `clientIp_comesFrom`: a request is charged to the peer that it comes from.
* `moment_charged`: so is every step of a middleware call, in every run.
* `peers_apart`: the limits hold for each peer, and nobody else uses them up.
-/

namespace VoxtralServer
namespace Service

variable {lib : JsonLib} {cfg : ServerConfig} {deps : HandlerDeps} {p : InferencePool.Params}
  {s s' : Service} {a : Act} {moments : List (Service × Act)} {i : Nat} {peer : Str}
  {who : Nat → Str}

/-! ## Where a request comes from -/

/-- The request comes from `peer`. Without a trusted proxy that is the socket
address. With one it is the peer of the outermost of as many proxies as hops, each of
which has appended its own peer to whatever it received, and the last of which passes
one line on. -/
inductive ComesFrom (cfg : ServerConfig) (peer : Str) (req : HttplibRequest) : Prop
  | direct : cfg.trustProxy = false → req.remoteAddr = peer → ComesFrom cfg peer req
  | proxied {sent : Option Str} {peers : List Str} {header : Str} : cfg.trustProxy = true →
      (∀ a ∈ peer :: peers, PeerAddr a) → ((peer :: peers).length : Int) = cfg.trustedProxyHops →
      forwarded sent (peer :: peers) = some header →
      headerValues req.headers (utf8 "x-forwarded-for") = [header] → ComesFrom cfg peer req

/-- A request is charged to the peer that it comes from, whatever the client sent. -/
theorem clientIp_comesFrom {req : HttplibRequest} (h : ComesFrom cfg peer req) :
    clientIp cfg (adaptRequest req) = peer := by
  cases h with
  | direct htrust hremote =>
    simp only [clientIp, extractClientIp, htrust, Bool.not_false, Bool.true_or, if_true]
    exact hremote
  | @proxied sent peers header htrust hpeers hhops hforwarded hvalues =>
    have hheader : (adaptRequest req).header (utf8 "x-forwarded-for") = header := by
      rcases header_adaptRequest req (utf8 "x-forwarded-for") with ⟨_, hnone⟩ | hmem
      · rw [hvalues] at hnone
        cases hnone
      · rw [hvalues] at hmem
        exact List.mem_singleton.mp hmem
    have hlen : cfg.trustedProxyHops.toNat = peers.length + 1 := by
      rw [← hhops, Int.toNat_natCast, List.length_cons]
    obtain ⟨header', field, hheader', hfield, htrim⟩ := forwarded_field sent hpeers
    rw [hforwarded] at hheader'
    cases hheader'
    rw [clientIp, hheader, htrust, extractClientIp_field header _ (by omega), hlen, hfield]
    simp only [clientOfField, htrim]
    exact if_neg (hpeers peer List.mem_cons_self).nonempty

/-! ## Runs -/

/-- Each request that arrives comes from its peer; `who` gives the peers in the order
of arrival. -/
def FromPeers (cfg : ServerConfig) (who : Nat → Str) (s : Service) (a : Act) : Prop :=
  ∀ req, a = .arrive req → ComesFrom cfg (who s.requests.length) req

theorem reachable_comesFrom (h : (system lib cfg deps p).Reachable (FromPeers cfg who) s) :
    ∀ i req, s.requests[i]? = some req → ComesFrom cfg (who i) req := by
  refine System.reachable_inv (I := fun s : Service => ∀ i req, s.requests[i]? = some req →
    ComesFrom cfg (who i) req) ?_ ?_ h
  · rintro s ⟨now, now', rfl⟩ i req hreq
    cases hreq
  · intro s a t hi hg hst
    cases step_moves hst with
    | @arrive req happ =>
      intro i req' hreq'
      by_cases hlt : i < s.requests.length
      · exact hi i req' (by rwa [List.getElem?_append_left hlt] at hreq')
      · rw [List.getElem?_append_right (Nat.not_lt.mp hlt)] at hreq'
        obtain ⟨hlast, hself⟩ := List.getElem?_eq_some_iff.mp hreq'
        rw [List.getElem_singleton] at hself
        have hlen : i = s.requests.length := by
          simp only [List.length_singleton] at hlast
          omega
        rw [← hself, hlen]
        exact hg req rfl
    | gate => exact hi
    | receive => exact hi
    | speech => exact hi

/-- The middleware call of a request is charged to its peer. -/
theorem call_charged (h : (system lib cfg deps p).Reachable (FromPeers cfg who) s)
    {call : Race.Call} (hcall : s.gate.calls[i]? = some call) : clientIp cfg call.req = who i := by
  obtain ⟨req, hreq, hcallReq, _⟩ := (reachable_aligned h.any).call hcall
  rw [hcallReq]
  exact clientIp_comesFrom (reachable_comesFrom h i req hreq)

/-- So is every step that it has taken. -/
theorem moment_charged (h : (system lib cfg deps p).History (FromPeers cfg who) moments s)
    {t : Service} {m : Moment} (hmem : (t, .gate i m) ∈ moments) {call : Race.Call}
    (hcall : t.gate.calls[i]? = some call) : clientIp cfg call.req = who i :=
  call_charged (h.moment hmem).1 hcall

/-- The request limiter is asked for a peer by requests of this peer. -/
theorem asks_own (h : (system lib cfg deps p).History (FromPeers cfg who) moments s)
    {since : Int} {m : Service × Act} (hmem : m ∈ moments) (hasks : asks cfg peer since m = true) :
    ∃ i moment, m.2 = .gate i moment ∧ who i = peer := by
  obtain ⟨t, a⟩ := m
  unfold asks at hasks
  split at hasks
  · next i moment ha =>
    split at hasks
    · next req hcall =>
      cases ha
      exact ⟨i, moment, rfl, (moment_charged h hmem hcall).symm.trans (of_decide_eq_true hasks).1⟩
    · cases hasks
  · cases hasks

/-- The requests admitted for a peer are its own. -/
theorem admitted_own (h : (system lib cfg deps p).History (FromPeers cfg who) moments s)
    {now : Int} (hadmitted : (i, now) ∈ admitted cfg peer moments) : who i = peer := by
  obtain ⟨⟨t, a⟩, hmem, hadm⟩ := List.mem_filterMap.mp hadmitted
  unfold admission at hadm
  split at hadm
  · next j moment ha =>
    split at hadm
    · next req hcall =>
      split at hadm
      · next hip =>
        cases ha
        cases hadm
        exact (moment_charged h hmem hcall).symm.trans hip.1
      · cases hadm
    · cases hadm
  · cases hadm

/-- The requests of the peer that have arrived carry accepted headers. -/
def Keyed (cfg : ServerConfig) (who : Nat → Str) (peer : Str) (s : Service) : Prop :=
  ∀ i req, s.requests[i]? = some req → who i = peer → Accepted cfg (adaptRequest req)

theorem Keyed.back (hst : (system lib cfg deps p).step s a = some s')
    (h : Keyed cfg who peer s') : Keyed cfg who peer s := by
  cases step_moves hst with
  | arrive =>
    intro i req hreq
    obtain ⟨hlt, _⟩ := List.getElem?_eq_some_iff.mp hreq
    exact h i req ((List.getElem?_append_left hlt).trans hreq)
  | gate => exact h
  | receive => exact h
  | speech => exact h

/-- A run that ends so has let no other request of this address arrive. -/
theorem history_keyed (h : (system lib cfg deps p).History (FromPeers cfg who) moments s)
    (hkeyed : Keyed cfg who peer s) :
    (system lib cfg deps p).History (Honest cfg peer) moments s := by
  refine System.history_inv (I := fun moments s => Keyed cfg who peer s →
    (system lib cfg deps p).History (Honest cfg peer) moments s) ?_ ?_ h hkeyed
  · exact fun s hs _ => ⟨s, hs, .refl⟩
  · intro moments s a t _ hi hg hst hkeyed
    refine (hi (hkeyed.back hst)).step ?_ hst
    cases step_moves hst with
    | @arrive req =>
      intro hip
      refine hkeyed s.requests.length req (by simp) ?_
      rw [← hip]
      exact (clientIp_comesFrom (hg req rfl)).symm
    | gate => trivial
    | receive => trivial
    | speech => trivial

/-- **Peers are kept apart.** When every request comes from its peer through the
trusted proxies, whatever headers the clients send, then in every run and for each
peer: no 60 seconds admit more than `2 * max_rpm - 1` of its requests; these are its
own, each admitted once, and all of its requests that get to a handler are among
them; only its own requests ask the limiter in its name; and when all of its requests
carry accepted headers, each that is decided on is let through, or refused after
`max_rpm` requests of the same peer in the 60 seconds before. -/
theorem peers_apart (h : (system lib cfg deps p).History (FromPeers cfg who) moments s)
    (peer : Str) :
    (∀ a, Window.within (seconds 60) ((admitted cfg peer moments).map Prod.snd) a ≤
      2 * sizeOfInt cfg.requestRateLimitRpm - 1) ∧
    (∀ i now, (i, now) ∈ admitted cfg peer moments → who i = peer) ∧
    ((admitted cfg peer moments).map Prod.fst).Nodup ∧
    (∀ i, who i = peer → s.letThrough i = true → ∃ now, (i, now) ∈ admitted cfg peer moments) ∧
    (∀ since, ∀ m ∈ moments, asks cfg peer since m = true →
      ∃ i moment, m.2 = .gate i moment ∧ who i = peer) ∧
    (Keyed cfg who peer s → ∀ i result, who i = peer → s.phaseOf i = some (.done result) →
      result = .ok none ∨
        ∃ retryAfter > 0, result = rateLimited lib retryAfter ∧ Busy cfg moments i peer) := by
  refine ⟨history_load h.any peer, fun i now => admitted_own h, (history_once h.any peer).1, ?_,
    fun since m hmem => asks_own h hmem, ?_⟩
  · rintro i rfl hpass
    obtain ⟨call, hcall, hphase⟩ := Option.map_eq_some_iff.mp (letThrough_phase.mp hpass)
    rw [← call_charged h.reachable hcall]
    exact history_passes h.any i call hcall (by rw [hphase]; trivial)
  · rintro hkeyed i result rfl hdone
    obtain ⟨call, hcall, _⟩ := Option.map_eq_some_iff.mp hdone
    obtain ⟨req, hreq, _⟩ := (reachable_aligned h.any.reachable).call hcall
    have hip := clientIp_comesFrom (reachable_comesFrom h.reachable i req hreq)
    exact honest_decided (history_keyed h hkeyed) hreq hip hdone

/-- A request with the right key, from a client that names another one. -/
def exForgedPost : HttplibRequest :=
  { exHelloPost with
    headers := (utf8 "X-Forwarded-For", utf8 "6.6.6.6, 1.2.3.4") :: exHelloPost.headers
    remoteAddr := utf8 "10.0.0.1" }

/-- The service behind one proxy, before any request. -/
def exProxyService : Service :=
  { gate := { limiters := .ofConfig exProxyConfig, clock := 0 } }

/-- The service when the request has arrived. -/
def exForgedArrived : Service :=
  { exProxyService with
    gate := { exProxyService.gate with calls := [⟨adaptRequest exForgedPost, .start⟩] }
    requests := [exForgedPost] }

/-- The steps of its middleware call. -/
def exForgedSteps : List Act := List.replicate 3 (.gate 0 exMoment)

theorem exForgedPost_comesFrom : ComesFrom exProxyConfig (utf8 "1.2.3.4") exForgedPost := by
  have hpeer := PeerAddr.of_no_blank (a := utf8 "1.2.3.4") (by decide) (by decide) (by decide)
  exact @ComesFrom.proxied _ _ _ (some (utf8 "6.6.6.6")) [] _ rfl (by simpa using hpeer) rfl rfl
    (by decide)

/-- The request is admitted as one of the peer of the proxy, and let through. -/
theorem peers_apart_forged : ∃ s moments,
    (system SpeechServer.exHelloLib exProxyConfig {} {}).History
      (FromPeers exProxyConfig fun _ => utf8 "1.2.3.4") moments s ∧
    s.letThrough 0 = true ∧
    ∃ now, (0, now) ∈ admitted exProxyConfig (utf8 "1.2.3.4") moments := by
  let S := system SpeechServer.exHelloLib exProxyConfig {} {}
  let G := FromPeers exProxyConfig fun _ => utf8 "1.2.3.4"
  have hguard : G exProxyService (.arrive exForgedPost) := by
    rintro req ⟨⟩
    exact exForgedPost_comesFrom
  have harrive : S.step exProxyService (.arrive exForgedPost) = some exForgedArrived := rfl
  obtain ⟨s, hrun⟩ := Option.isSome_iff_exists.mp (show
    (S.run (fun _ a => a.Arrives fun _ => False) exForgedArrived exForgedSteps).isSome = true by
    decide)
  have hlater : S.Runs G exForgedArrived (S.moments exForgedArrived exForgedSteps) s := by
    refine (System.runs_of_run _ hrun).mono ?_
    rintro s a hnone req rfl
    cases hnone
  have hhistory : S.History G _ s :=
    ⟨exProxyService, ⟨0, 0, rfl⟩, (System.Runs.refl.step hguard harrive).append hlater⟩
  cases hrun
  exact ⟨_, _, hhistory, rfl, (peers_apart hhistory (utf8 "1.2.3.4")).2.2.2.1 0 rfl rfl⟩

end Service
end VoxtralServer
