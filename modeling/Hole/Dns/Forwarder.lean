import Hole.Dns.Wire
import Hole.Gui.AppConfig

/-!
# The forwarder of DNS

`DnsForwarder::forward` of `crates/bridge/src/dns/forwarder.rs`: a query goes to one upstream after
another, over the transport of the configuration, until one replies, and if none does a SERVFAIL is
made of the query. What an upstream does in its attempt is up to the upstream, and to the budget.

A reply is handed on as it came.
-/

namespace Hole.Dns

open Gui (DnsProtocol DnsConfig)

/-- `DnsForwarder`. -/
structure Forwarder where
  config : DnsConfig
  ipv6BypassAvailable : Bool

/-- How a step of an attempt ends. -/
inductive Outcome
  | done
  | fails
  /-- By a chain that does not verify. -/
  | rejected
  /-- The budget fires before it does. -/
  | stalls

/-- What an upstream does in an attempt, step by step. -/
structure Upstream where
  connect : Outcome
  handshake : Outcome
  write : Outcome
  /-- The datagram that is received, for UDP. -/
  datagram : Except UpstreamLayer (List UInt8)
  /-- What is read, for the others: of the TCP stream, or from inside TLS. -/
  stream : Stream

/-- `UpstreamCause`. -/
inductive UpstreamCause
  | unreachable
  | certificateRejected
  | tlsFailed
  | badResponse
  | io
  | connectTimeout
  | exchangeTimeout

/-- `UpstreamErr`, as far as `cause` looks at it. -/
structure UpstreamErr where
  layer : UpstreamLayer
  /-- `first_rustls_error` is a rejection of the chain. -/
  trustChain : Bool
  /-- A transport was published to the probe. -/
  published : Bool

/-- `ForwardFailure`. -/
inductive ForwardFailure
  | malformedQuery
  | noUpstream
  | upstream (cause : UpstreamCause)

/-- `UpstreamCause::rank`. -/
def UpstreamCause.rank : UpstreamCause → Nat
  | .certificateRejected => 6
  | .tlsFailed => 5
  | .badResponse => 4
  | .io => 3
  | .exchangeTimeout => 2
  | .connectTimeout => 1
  | .unreachable => 0

/-- `UpstreamErr::cause`. -/
def UpstreamErr.cause (e : UpstreamErr) : UpstreamCause :=
  match e.layer with
  | .connect => .unreachable
  | .timeout => if e.published then .exchangeTimeout else .connectTimeout
  | .http => .badResponse
  | .io => .io
  | .tls => if e.trustChain then .certificateRejected else .tlsFailed

/-- The error of a step of a layer, once there is a transport or before. -/
def Outcome.at (outcome : Outcome) (layer : UpstreamLayer) (published : Bool) :
    Except UpstreamErr Unit :=
  match outcome with
  | .done => .ok ()
  | .fails => .error ⟨layer, false, published⟩
  | .rejected => .error ⟨layer, true, published⟩
  | .stalls => .error ⟨.timeout, false, published⟩

/-- A read over a transport. -/
def readOver {α : Type} (result : Except UpstreamLayer α) : Except UpstreamErr α :=
  result.mapError fun layer ↦ ⟨layer, false, true⟩

/-- `forward_udp`. -/
def forwardUdp (u : Upstream) : Except UpstreamErr Message := do
  u.connect.at .connect false
  u.write.at .io true
  let datagram ← readOver u.datagram
  -- A longer one is cut off by the buffer.
  return datagram.take maxReplySize

/-- `exchange_tcp_framed`. -/
def exchangeTcpFramed (u : Upstream) (query : Message) : Except UpstreamErr Message := do
  if 65535 < query.length then throw ⟨.io, false, true⟩
  u.write.at .io true
  readOver (readFramed u.stream)

/-- `forward_tcp`. -/
def forwardTcp (u : Upstream) (query : Message) : Except UpstreamErr Message := do
  u.connect.at .connect false
  exchangeTcpFramed u query

/-- `forward_tls`. -/
def forwardTls (u : Upstream) (query : Message) : Except UpstreamErr Message := do
  u.connect.at .connect false
  u.handshake.at .tls true
  exchangeTcpFramed u query

/-- `forward_https`. -/
def forwardHttps (u : Upstream) : Except UpstreamErr Message := do
  u.connect.at .connect false
  u.handshake.at .tls true
  u.write.at .io true
  let resp ← readOver (u.stream.readToEnd (maxReplySize * 4))
  (parseHttpDnsResponse resp).mapError fun _ ↦ ⟨.http, false, true⟩

namespace Forwarder

variable (f : Forwarder)

/-- `forward_one`. -/
def forwardOne (query : Message) (u : Upstream) : Except UpstreamErr Message :=
  match f.config.protocol with
  | .plainUdp => forwardUdp u
  | .plainTcp => forwardTcp u query
  | .tls => forwardTls u query
  | .https => forwardHttps u

/-- A server that is not tried. -/
def Skips (server : IpAddr) : Prop := server.isIpv4 = false ∧ f.ipv6BypassAvailable = false

instance (server : IpAddr) : Decidable (f.Skips server) := inferInstanceAs (Decidable (_ ∧ _))

/-- The worst cause so far, after another. -/
def worse (worst : Option UpstreamCause) (cause : UpstreamCause) : Option UpstreamCause :=
  match worst with
  | none => some cause
  | some w => if w.rank < cause.rank then some cause else some w

/-- The walk of `try_forward` over servers, each with what it does. -/
def walk (query : Message) :
    Option UpstreamCause → List (IpAddr × Upstream) → Except ForwardFailure Message
  | worst, [] => .error (worst.elim .noUpstream .upstream)
  | worst, (server, u) :: rest =>
    if f.Skips server then walk query worst rest
    else match f.forwardOne query u with
      | .ok reply => .ok reply
      | .error e => walk query (worse worst e.cause) rest

/-- `try_forward`. -/
def tryForward (query : Message) (upstreams : Nat → Upstream) : Except ForwardFailure Message :=
  if query.length < 12 then .error .malformedQuery
  else f.walk query none (f.config.servers.zipIdx.map fun (server, idx) ↦ (server, upstreams idx))

/-- `forward`; nothing if it panics. -/
def forward (query : Message) (upstreams : Nat → Upstream) : Option Message :=
  if query.length < 12 then synthesizeServfail query
  else match f.tryForward query upstreams with
    | .ok reply => some reply
    | .error _ => synthesizeServfail query

/-- The servers that are tried, each with what it does. -/
def tried (upstreams : Nat → Upstream) : List (IpAddr × Upstream) :=
  (f.config.servers.zipIdx.map fun (server, idx) ↦ (server, upstreams idx)).filter
    fun (server, _) ↦ ¬f.Skips server

end Forwarder

/-! ### What an upstream brings -/

/-- A message after its length, on a stream. -/
def Framed (s : Stream) (m : Message) : Prop :=
  m.length ≤ maxReplySize ∧ ∃ rest, s.bytes = Galoshes.frameUdpDatagram m ++ rest

/-- An upstream gets a message through, whole and within the budget. -/
def Brings (protocol : DnsProtocol) (query : Message) (u : Upstream) (m : Message) : Prop :=
  u.connect = .done ∧ u.write = .done ∧
    match protocol with
    | .plainUdp => ∃ datagram, u.datagram = .ok datagram ∧ m = datagram.take maxReplySize
    | .plainTcp => query.length ≤ 65535 ∧ Framed u.stream m
    | .tls => u.handshake = .done ∧ query.length ≤ 65535 ∧ Framed u.stream m
    | .https => u.handshake = .done ∧ ∃ resp, u.stream.readToEnd (maxReplySize * 4) = .ok resp ∧
        parseHttpDnsResponse resp = .ok m

theorem at_eq_ok {outcome : Outcome} {layer : UpstreamLayer} {published : Bool} {u : Unit} :
    outcome.at layer published = .ok u ↔ outcome = .done := by
  cases outcome <;> simp [Outcome.at]

theorem bind_eq_ok {ε α β : Type} {x : Except ε α} {g : α → Except ε β} {b : β} :
    (x >>= g) = .ok b ↔ ∃ a, x = .ok a ∧ g a = .ok b := by
  cases x <;> simp [bind, Except.bind]

theorem readOver_eq_ok {α : Type} {result : Except UpstreamLayer α} {a : α} :
    readOver result = .ok a ↔ result = .ok a := by
  cases result <;> simp [readOver, Except.mapError]

theorem readReply_eq_ok {s : Stream} {n : Nat} {m : Message} :
    readReply s n = .ok m ↔ n ≤ maxReplySize ∧ n ≤ s.bytes.length ∧ s.bytes.take n = m := by
  unfold readReply Stream.readExact
  split
  · next hlarge => simp [Nat.not_le.2 hlarge]
  · next hsmall =>
    split
    · next hle => simp [Except.map, hle, Nat.not_lt.1 hsmall]
    · next hle => simp [Except.map, hle]

/-- What is read is what a datagram of `galoshes` would be, below a bound. -/
theorem readFramed_eq_ok_iff {s : Stream} {m : Message} :
    readFramed s = .ok m ↔
      m.length ≤ maxReplySize ∧ ∃ rest, Galoshes.deframeUdpDatagram s.bytes = some (m, rest) := by
  obtain ⟨bytes, close⟩ := s
  match bytes with
  | [] => simp [readFramed, Stream.readExact, Galoshes.deframeUdpDatagram, bind, Except.bind]
  | [_] => simp [readFramed, Stream.readExact, Galoshes.deframeUdpDatagram, bind, Except.bind]
  | high :: low :: rest =>
    have hread : readFramed ⟨high :: low :: rest, close⟩ =
        readReply ⟨rest, close⟩ (Galoshes.fromBeBytes high low).toNat := by
      have hhead : Stream.readExact ⟨high :: low :: rest, close⟩ 2 =
          .ok ([high, low], ⟨rest, close⟩) := if_pos (by simp)
      rw [readFramed, hhead]
      rfl
    rw [hread, readReply_eq_ok]
    simp only [Galoshes.deframeUdpDatagram]
    constructor
    · rintro ⟨hsmall, hle, rfl⟩
      have hlength := List.length_take_of_le hle
      exact ⟨by omega, _, if_neg (Nat.not_lt.2 hle)⟩
    · rintro ⟨hsmall, rest', hdeframe⟩
      split at hdeframe
      · cases hdeframe
      · next hle =>
        cases hdeframe
        have hle' := Nat.not_lt.1 hle
        rw [List.length_take_of_le hle'] at hsmall
        exact ⟨hsmall, hle', rfl⟩

/-- What is read after a length is framed by it, and the other way round. -/
theorem readFramed_eq_ok {s : Stream} {m : Message} : readFramed s = .ok m ↔ Framed s m := by
  rw [readFramed_eq_ok_iff]
  refine and_congr_right fun hsmall ↦ exists_congr fun rest ↦ ⟨fun h ↦ ?_, fun h ↦ ?_⟩
  · exact (Galoshes.eq_of_deframe h).1
  · rw [h]
    exact Galoshes.deframe_frame (Nat.lt_of_le_of_lt hsmall (by decide)) rest

theorem exchangeTcpFramed_eq_ok {u : Upstream} {query m : Message} :
    exchangeTcpFramed u query = .ok m ↔
      query.length ≤ 65535 ∧ u.write = .done ∧ Framed u.stream m := by
  unfold exchangeTcpFramed
  split
  · next hlarge =>
    refine iff_of_false nofun fun h ↦ ?_
    omega
  · next hsmall =>
    simp only [bind_eq_ok, at_eq_ok, readOver_eq_ok, readFramed_eq_ok, exists_const,
      Nat.not_lt.1 hsmall, true_and]

/-- An attempt gives what the upstream brings. -/
theorem forwardOne_eq_ok {f : Forwarder} {query m : Message} {u : Upstream} :
    f.forwardOne query u = .ok m ↔ Brings f.config.protocol query u m := by
  unfold Forwarder.forwardOne Brings
  cases f.config.protocol with
  | plainUdp =>
    have hpure (datagram : List UInt8) :
        (pure (datagram.take maxReplySize) : Except UpstreamErr Message) = .ok m ↔
          m = datagram.take maxReplySize := by
      simp [pure, Except.pure, eq_comm]
    simp only [forwardUdp, bind_eq_ok, at_eq_ok, readOver_eq_ok, hpure, exists_const]
  | plainTcp =>
    simp only [forwardTcp, bind_eq_ok, at_eq_ok, exchangeTcpFramed_eq_ok, exists_const]
    tauto
  | tls =>
    simp only [forwardTls, bind_eq_ok, at_eq_ok, exchangeTcpFramed_eq_ok, exists_const]
    tauto
  | https =>
    have hparse (resp : List UInt8) : ((parseHttpDnsResponse resp).mapError fun _ ↦
        (⟨.http, false, true⟩ : UpstreamErr)) = .ok m ↔ parseHttpDnsResponse resp = .ok m := by
      cases parseHttpDnsResponse resp <;> simp [Except.mapError]
    simp only [forwardHttps, bind_eq_ok, at_eq_ok, readOver_eq_ok, hparse, exists_const]
    tauto

/-! ### What is replied -/

namespace Forwarder

variable {f : Forwarder} {query : Message} {upstreams : Nat → Upstream}

/-- The first upstream that brings a message brings this one. -/
def Replies (f : Forwarder) (query : Message) (upstreams : Nat → Upstream) (m : Message) : Prop :=
  ∃ before server u after, f.tried upstreams = before ++ (server, u) :: after ∧
    Brings f.config.protocol query u m ∧
    ∀ tried ∈ before, ∀ m', ¬Brings f.config.protocol query tried.2 m'

/-- The walk does not look at what it skips. -/
theorem walk_filter (worst : Option UpstreamCause) (servers : List (IpAddr × Upstream)) :
    f.walk query worst servers =
      f.walk query worst (servers.filter fun (server, _) ↦ ¬f.Skips server) := by
  induction servers generalizing worst with
  | nil => rfl
  | cons head rest ih =>
    obtain ⟨server, u⟩ := head
    by_cases hskip : f.Skips server
    · rw [List.filter_cons_of_neg (by simpa using hskip), walk, if_pos hskip, ih]
    · rw [List.filter_cons_of_pos (by simpa using hskip), walk, walk, if_neg hskip, if_neg hskip]
      cases f.forwardOne query u with
      | ok reply => rfl
      | error e => exact ih _

/-- The walk gives the first message. -/
theorem walk_eq_ok {servers : List (IpAddr × Upstream)}
    (hservers : ∀ p ∈ servers, ¬f.Skips p.1) {worst : Option UpstreamCause} {m : Message} :
    f.walk query worst servers = .ok m ↔
      ∃ before server u after, servers = before ++ (server, u) :: after ∧
        Brings f.config.protocol query u m ∧
        ∀ tried ∈ before, ∀ m', ¬Brings f.config.protocol query tried.2 m' := by
  induction servers generalizing worst with
  | nil => simp [walk]
  | cons head rest ih =>
    obtain ⟨server, u⟩ := head
    rw [walk, if_neg (hservers (server, u) List.mem_cons_self)]
    cases hone : f.forwardOne query u with
    | ok reply =>
      have hbrings := forwardOne_eq_ok.1 hone
      constructor
      · rintro ⟨⟩
        exact ⟨[], server, u, rest, rfl, hbrings, by simp⟩
      · rintro ⟨before, server', u', after, hsplit, hbrings', hbefore⟩
        match before with
        | [] =>
          obtain ⟨⟨rfl, rfl⟩, rfl⟩ : (server = server' ∧ u = u') ∧ rest = after := by
            simpa using hsplit
          cases hone.symm.trans (forwardOne_eq_ok.2 hbrings')
          rfl
        | first :: before =>
          obtain ⟨rfl, -⟩ : (server, u) = first ∧ _ := List.cons_eq_cons.1 hsplit
          exact absurd hbrings (hbefore (server, u) List.mem_cons_self _)
    | error e =>
      have hnone (m' : Message) : ¬Brings f.config.protocol query u m' := fun hbrings ↦ by
        rw [forwardOne_eq_ok.2 hbrings] at hone
        cases hone
      refine (ih fun p hp ↦ hservers p (.tail _ hp)).trans ⟨?_, ?_⟩
      · rintro ⟨before, server', u', after, rfl, hbrings, hbefore⟩
        refine ⟨(server, u) :: before, server', u', after, rfl, hbrings, fun tried htried ↦ ?_⟩
        rcases List.mem_cons.1 htried with rfl | htried
        · exact hnone
        · exact hbefore tried htried
      · rintro ⟨before, server', u', after, hsplit, hbrings, hbefore⟩
        match before with
        | [] =>
          obtain ⟨⟨rfl, rfl⟩, rfl⟩ : (server = server' ∧ u = u') ∧ rest = after := by
            simpa using hsplit
          exact absurd hbrings (hnone m)
        | first :: before =>
          obtain ⟨rfl, rfl⟩ : (server, u) = first ∧ rest = before ++ (server', u') :: after :=
            List.cons_eq_cons.1 hsplit
          exact ⟨before, server', u', after, rfl, hbrings,
            fun tried htried ↦ hbefore tried (.tail _ htried)⟩

/-- A query with a header gets the reply of the first upstream that brings one. -/
theorem tryForward_eq_ok (hquery : 12 ≤ query.length) {m : Message} :
    f.tryForward query upstreams = .ok m ↔ f.Replies query upstreams m := by
  rw [tryForward, if_neg (Nat.not_lt.2 hquery), walk_filter, walk_eq_ok]
  · rfl
  · intro p hp
    simpa using (List.mem_filter.1 hp).2

/-- The upstreams let the forwarder answer: the first that brings a message brings a reply to the
query, or none does, and the question of the query fits. -/
structure Answerable (f : Forwarder) (query : Message) (upstreams : Nat → Upstream) : Prop where
  brought : 12 ≤ query.length → ∀ m, f.Replies query upstreams m → Answers query m
  unanswered : (∀ m, ¬f.Replies query upstreams m) → QuestionFits query

/-- **The question that was asked is answered**, if and only if the upstreams and the question let
it. -/
theorem forward_answers_iff (f : Forwarder) (query : Message) (upstreams : Nat → Upstream) :
    (∃ reply, f.forward query upstreams = some reply ∧ Answers query reply) ↔
      f.Answerable query upstreams := by
  by_cases hshort : query.length < 12
  · have hfits := questionFits_of_le (Nat.le_of_lt hshort)
    rw [forward, if_pos hshort]
    exact iff_of_true (synthesizeServfail_of_fits hfits)
      ⟨fun hlong ↦ absurd hshort (Nat.not_lt.2 hlong), fun _ ↦ hfits⟩
  have hlong := Nat.not_lt.1 hshort
  rw [forward, if_neg hshort]
  cases htry : f.tryForward query upstreams with
  | ok reply =>
    have hreplies := (tryForward_eq_ok hlong).1 htry
    constructor
    · rintro ⟨_, ⟨⟩, hanswers⟩
      refine ⟨fun _ m hm ↦ ?_, fun hnone ↦ absurd hreplies (hnone reply)⟩
      rw [(tryForward_eq_ok hlong).2 hm] at htry
      cases htry
      exact hanswers
    · exact fun h ↦ ⟨reply, rfl, h.brought hlong reply hreplies⟩
  | error failure =>
    have hnone (m : Message) : ¬f.Replies query upstreams m := fun hm ↦ by
      rw [(tryForward_eq_ok hlong).2 hm] at htry
      cases htry
    constructor
    · rintro ⟨reply, hreply, -⟩
      refine ⟨fun _ m hm ↦ absurd hm (hnone m), fun _ ↦ ?_⟩
      by_contra hfits
      rw [synthesizeServfail_of_not_fits hfits] at hreply
      cases hreply
    · exact fun h ↦ synthesizeServfail_of_fits (h.unanswered hnone)

end Forwarder

/-- A forwarder with one resolver. -/
def sampleForwarder : Forwarder := ⟨⟨true, [.ofOctets 9 9 9 9], .plainUdp, false⟩, false⟩

/-- An upstream that answers with a datagram. -/
def sampleUpstream (connect : Outcome) (datagram : List UInt8) : Upstream :=
  ⟨connect, .done, .done, .ok datagram, ⟨[], .eof⟩⟩

/-- A header whose question ends at once, with nothing behind it. -/
def cutQuery : Message := [7, 7, 1, 0, 0, 1, 0, 0, 0, 0, 0, 0, 0]

/-- Without an upstream the cut question panics, and an upstream that sends an empty datagram is
handed on. -/
theorem forward_unanswered :
    sampleForwarder.forward cutQuery (fun _ ↦ sampleUpstream .fails []) = none ∧
      sampleForwarder.forward cutQuery (fun _ ↦ sampleUpstream .done []) = some [] ∧
      ¬Answers cutQuery [] := by
  refine ⟨?_, ?_, fun h ↦ absurd h.header (by decide)⟩
  · have hfits : ¬QuestionFits cutQuery := by
      intro h
      have hend : questionEnd (cutQuery.drop 12) = some 5 := by
        simp [cutQuery, questionEnd, questionEndFrom]
      exact absurd (h 5 hend) (by decide)
    have hforward : sampleForwarder.forward cutQuery (fun _ ↦ sampleUpstream .fails []) =
        synthesizeServfail cutQuery := rfl
    rw [hforward, synthesizeServfail_of_not_fits hfits]
  · rfl

end Hole.Dns
