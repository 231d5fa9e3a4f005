import Mathlib.Data.List.DropRight
import Mathlib.Data.List.MinMax
import Hole.Bridge.ProxyManager
import Hole.Dns.Forwarder
import Hole.Effect.Trace

/-!
# The bootstrap resolver

`resolve_via_doh_with` of `crates/bridge/src/dns/bootstrap.rs`: the address of the proxy server is
asked of one configured resolver after another, before there is a tunnel. What a resolver replies is
up to the resolver, so the resolver is a program over its queries; how a query is written and a
reply read is up to `hickory_proto`.

A run asks in *rounds*, one for each resolver it comes to, and everything it returns is a function
of the rounds (`Resolved`).
-/

namespace Hole.Dns

open Effect Gui
open Bridge (Bootstrapped PinSource)
open Prog (hasTrace_bind hasTrace_pure)

/-! ### What can be found -/

/-- `BootstrapError`. -/
inductive BootstrapError
  | invalidName
  | certificateRejected
  | malformedReply
  | noAnswer
  | transport
  | timeout
  | unreachable
  deriving DecidableEq

/-- `BootstrapError::rank`. -/
def BootstrapError.rank : BootstrapError → Nat
  | .invalidName => 7
  | .certificateRejected => 6
  | .malformedReply => 5
  | .noAnswer => 4
  | .transport => 3
  | .timeout => 2
  | .unreachable => 1

/-- `classify`. -/
def classify : UpstreamCause → BootstrapError
  | .certificateRejected => .certificateRejected
  | .unreachable => .unreachable
  | .connectTimeout | .exchangeTimeout => .timeout
  | .tlsFailed | .badResponse | .io => .transport

/-- `fold_worst`. -/
def foldWorst (worst : Option BootstrapError) (e : BootstrapError) : Option BootstrapError :=
  if worst.all (·.rank < e.rank) then some e else worst

/-! ### Queries and replies -/

/-- `RecordType`, as far as it is asked for. -/
inductive RecordType
  | a
  | aaaa
  deriving DecidableEq

/-- A message of DNS, as far as it is read. -/
structure DnsMessage where
  /-- `ip_addr` of the data of each answer. -/
  answers : List (Option IpAddr)
  /-- The response code is `NXDomain`. -/
  nxDomain : Bool

/-- What `hickory_proto` does. -/
structure Hickory (Name : Type) where
  fromAscii : List Char → Option Name
  /-- `to_vec` of a query that wants recursion, with a transaction id. -/
  toVec : UInt16 → Name → RecordType → Option Message
  fromVec : Message → Option DnsMessage

/-- `DnsReply`. -/
structure DnsReply where
  addrs : List IpAddr
  nameMissing : Bool

/-- `LegOutcome`. -/
inductive LegOutcome
  | address (ip : IpAddr)
  | answered (nameMissing : Bool)
  | failed (e : BootstrapError)

/-- The family that a record type asks for. -/
def RecordType.want : RecordType → IpAddr → Bool
  | .a, ip => ip.isIpv4
  | .aaaa, ip => !ip.isIpv4

namespace Hickory

variable {Name : Type} (h : Hickory Name)

/-- `build_query`. -/
def buildQuery (name : List Char) (txId : UInt16) (rtype : RecordType) :
    Except BootstrapError Message :=
  match (h.fromAscii (name.rdropWhile (· = '.') ++ ['.'])).bind (h.toVec txId · rtype) with
  | some wire => .ok wire
  | none => .error .invalidName

/-- `build_a_query` and `build_aaaa_query`, with the transaction ids of a bootstrap. -/
def buildQueries (host : List Char) : Except BootstrapError (Message × Message) := do
  let aQuery ← h.buildQuery host 0x0001 .a
  let aaaaQuery ← h.buildQuery host 0x0002 .aaaa
  return (aQuery, aaaaQuery)

/-- `parse_addrs`. -/
def parseAddrs (reply : Message) : Option DnsReply :=
  (h.fromVec reply).map fun msg ↦ ⟨msg.answers.filterMap id, msg.nxDomain⟩

/-- How `run_leg` classifies the result of its query. -/
def legOutcome (rtype : RecordType) : Except UpstreamCause Message → LegOutcome
  | .ok reply =>
    match h.parseAddrs reply with
    | some parsed =>
      match parsed.addrs.find? rtype.want with
      | some ip => .address ip
      | none => .answered parsed.nameMissing
    | none => .failed .malformedReply
  | .error cause => .failed (classify cause)

end Hickory

/-! ### The resolver -/

/-- What a bootstrap asks of its surroundings. -/
inductive BootOp
  /-- `DohQuerier::query`. -/
  | query (server : IpAddr) (wire : Message)
  /-- `tokio::net::lookup_host`, with port 0. -/
  | lookupHost (host : List Char)

/-- What it is answered. -/
abbrev BootOp.Ans : BootOp → Type
  | query _ _ => Except UpstreamCause Message
  | lookupHost _ => Except String (List SocketAddr)

/-- Programs over them. -/
abbrev BootM : Type → Type := Prog BootOp BootOp.Ans

/-- The accumulators of the walk. -/
structure Found where
  v6Fallback : Option Bootstrapped
  reachable : Option IpAddr
  worst : Option BootstrapError

/-- A reply that parses makes its resolver the reachable one, unless there is one. -/
def Found.answeredBy (found : Found) (server : IpAddr) : Found :=
  { found with reachable := found.reachable.orElse fun _ ↦ some server }

/-- A finding is folded in. -/
def Found.fold (found : Found) (e : BootstrapError) : Found :=
  { found with worst := foldWorst found.worst e }

namespace Hickory

variable {Name : Type} (h : Hickory Name)

/-- `run_leg`. -/
def runLeg (server : IpAddr) (wire : Message) (rtype : RecordType) : BootM LegOutcome := do
  return h.legOutcome rtype (← Prog.perform (.query server wire))

/-- The AAAA leg of the loop's body, if there is no IPv6 address yet. -/
def tryAaaa (aaaaQuery : Message) (server : IpAddr) (aAnswered : Bool) (found : Found) :
    BootM Found := do
  if found.v6Fallback.isSome then return found
  match ← h.runLeg server aaaaQuery .aaaa with
  | .address ip => return { found with v6Fallback := some ⟨ip, .answered server⟩ }
  | .answered nameMissing =>
    let found := found.answeredBy server
    return if aAnswered || nameMissing then found.fold .noAnswer else found
  | .failed e => return found.fold e

/-- The loop over the resolvers. -/
def walk (aQuery aaaaQuery : Message) : List IpAddr → Found → BootM (Except Bootstrapped Found)
  | [], found => return .ok found
  | server :: servers, found => do
    match ← h.runLeg server aQuery .a with
    -- IPv4 is preferred: nothing else is asked.
    | .address ip => return .error ⟨ip, .answered server⟩
    | .answered nameMissing =>
      let found := found.answeredBy server
      let found := if nameMissing then found.fold .noAnswer else found
      walk aQuery aaaaQuery servers (← h.tryAaaa aaaaQuery server true found)
    | .failed e =>
      walk aQuery aaaaQuery servers (← h.tryAaaa aaaaQuery server false (found.fold e))

end Hickory

/-- What is made of the answer of the OS resolver: an IPv4 address, else the first one. -/
def fromOs (reachable : Option IpAddr) (failure : BootstrapError) :
    Except String (List SocketAddr) → Except BootstrapError Bootstrapped
  | .error _ => .error failure
  | .ok addrs =>
    match (addrs.find? (·.ip.isIpv4)).orElse fun _ ↦ addrs.head? with
    | some a => .ok ⟨a.ip, reachable.elim .secureBootstrapFailed .answered⟩
    | none => .error failure

/-- `resolve_via_doh_with`. -/
def Hickory.resolveViaDohWith {Name : Type} (h : Hickory Name) (host : List Char)
    (dns : DnsConfig) : BootM (Except BootstrapError Bootstrapped) := do
  match IpAddr.fromStr host with
  | some ip => return .ok ⟨ip, .noQueryNeeded⟩
  | none =>
    match h.buildQueries host with
    | .error e => return .error e
    | .ok (aQuery, aaaaQuery) =>
      match ← h.walk aQuery aaaaQuery dns.servers ⟨none, none, none⟩ with
      | .error bootstrapped => return .ok bootstrapped
      | .ok found =>
        match found.v6Fallback with
        | some bootstrapped => return .ok bootstrapped
        | none =>
          let failure := found.worst.getD .noAnswer
          if dns.allowInsecureBootstrap then
            return fromOs found.reachable failure (← Prog.perform (.lookupHost host))
          else return .error failure

/-! ### Rounds -/

/-- What one resolver was asked and how it replied: its A leg, and its AAAA leg if there was one. -/
structure Round where
  server : IpAddr
  a : Except UpstreamCause Message
  aaaa : Option (Except UpstreamCause Message)

namespace Round

variable {Name : Type} (h : Hickory Name) (aQuery aaaaQuery : Message) (r : Round)

/-- The calls of the round. -/
def exchanges : List (Exchange BootOp.Ans) :=
  ⟨.query r.server aQuery, r.a⟩ :: r.aaaa.toList.map (⟨.query r.server aaaaQuery, ·⟩)

/-- How its legs are classified. -/
def legA : LegOutcome := h.legOutcome .a r.a

/-- How its legs are classified. -/
def legAaaa : Option LegOutcome := r.aaaa.map (h.legOutcome .aaaa)

end Round

/-- The address of a leg. -/
def LegOutcome.address? : LegOutcome → Option IpAddr
  | .address ip => some ip
  | .answered _ | .failed _ => none

/-- The leg has a parseable reply, without an address. -/
def LegOutcome.isAnswered : LegOutcome → Bool
  | .answered _ => true
  | .address _ | .failed _ => false

/-- What a leg finds; `conclusive` if an answer without an address settles the matter. -/
def LegOutcome.findings (conclusive : Bool) : LegOutcome → List BootstrapError
  | .address _ => []
  | .answered nameMissing => if conclusive || nameMissing then [.noAnswer] else []
  | .failed e => [e]

namespace Round

variable {Name : Type} (h : Hickory Name) (r : Round)

/-- The address that the round gives, of either family. -/
def v4 : Option Bootstrapped := (r.legA h).address?.map (⟨·, .answered r.server⟩)

/-- The address that the round gives, of either family. -/
def v6 : Option Bootstrapped :=
  ((r.legAaaa h).bind LegOutcome.address?).map (⟨·, .answered r.server⟩)

/-- The resolver, if it replied without an address. -/
def heard : Option IpAddr :=
  if (r.legA h).isAnswered || (r.legAaaa h).any (·.isAnswered) then some r.server else none

/-- What the round finds, in order. -/
def findings : List BootstrapError :=
  (r.legA h).findings false ++
    ((r.legAaaa h).map (·.findings (r.legA h).isAnswered)).getD []

end Round

/-- The accumulators after some rounds. -/
def Found.after {Name : Type} (h : Hickory Name) (rounds : List Round) : Found where
  v6Fallback := rounds.findSome? (·.v6 h)
  reachable := rounds.findSome? (·.heard h)
  worst := (rounds.flatMap (·.findings h)).argmax BootstrapError.rank

theorem foldWorst_argmax (l : List BootstrapError) (e : BootstrapError) :
    foldWorst (l.argmax BootstrapError.rank) e = (l ++ [e]).argmax BootstrapError.rank := by
  rw [List.argmax_concat]
  cases l.argmax BootstrapError.rank with
  | none => rfl
  | some w => simp [foldWorst]

theorem foldl_foldWorst (l l' : List BootstrapError) :
    l'.foldl foldWorst (l.argmax BootstrapError.rank) = (l ++ l').argmax BootstrapError.rank := by
  induction l' generalizing l with
  | nil => rw [List.append_nil]; rfl
  | cons e l' ih => rw [List.foldl_cons, foldWorst_argmax, ih, List.append_assoc]; rfl

variable {Name : Type} {h : Hickory Name} {aQuery aaaaQuery : Message} {server : IpAddr}
  {servers : List IpAddr} {rounds : List Round} {t : List (Exchange BootOp.Ans)}

/-- The accumulators after one more round. -/
theorem Found.after_concat (rounds : List Round) (r : Round) :
    Found.after h (rounds ++ [r]) =
      ⟨(Found.after h rounds).v6Fallback.or (r.v6 h),
        (Found.after h rounds).reachable.or (r.heard h),
        (r.findings h).foldl foldWorst (Found.after h rounds).worst⟩ := by
  simp [Found.after, List.findSome?_append, foldl_foldWorst]

/-! ### Runs -/

variable {leg : LegOutcome} {rtype : RecordType}

theorem hasTrace_runLeg {wire : Message} :
    (h.runLeg server wire rtype).HasTrace t leg ↔
      ∃ x, t = [⟨.query server wire, x⟩] ∧ leg = h.legOutcome rtype x := by
  constructor
  · intro ht
    obtain ⟨t₁, t₂, x, rfl, h₁, h₂⟩ := hasTrace_bind.1 ht
    obtain rfl := Prog.hasTrace_perform.1 h₁
    obtain ⟨rfl, rfl⟩ := hasTrace_pure.1 h₂
    exact ⟨x, rfl, rfl⟩
  · rintro ⟨x, rfl, rfl⟩
    exact .call x (.pure _)

/-- The accumulators once the A leg of a round has failed or was answered without an address. -/
def Found.afterA (found : Found) (server : IpAddr) : LegOutcome → Found
  | .address _ => found
  | .answered nameMissing =>
    if nameMissing then (found.answeredBy server).fold .noAnswer else found.answeredBy server
  | .failed e => found.fold e

/-- The accumulators once the AAAA leg has ended. -/
def Found.afterAaaa (found : Found) (server : IpAddr) (aAnswered : Bool) : LegOutcome → Found
  | .address ip => { found with v6Fallback := some ⟨ip, .answered server⟩ }
  | .answered nameMissing =>
    if aAnswered || nameMissing then (found.answeredBy server).fold .noAnswer
    else found.answeredBy server
  | .failed e => found.fold e

theorem answeredBy_eq (found : Found) (server : IpAddr) :
    found.answeredBy server =
      ⟨found.v6Fallback, found.reachable.or (some server), found.worst⟩ := by
  obtain ⟨v6, reachable, worst⟩ := found
  cases reachable <;> rfl

variable {a : Except UpstreamCause Message}

/-- A round without an AAAA leg. -/
theorem after_concat_none (ha : (h.legOutcome .a a).address? = none) :
    Found.after h (rounds ++ [⟨server, a, none⟩]) =
      (Found.after h rounds).afterA server (h.legOutcome .a a) := by
  rw [Found.after_concat]
  rcases hleg : h.legOutcome .a a with ip | (_ | _) | e
  · rw [hleg] at ha
    cases ha
  all_goals
    simp [Round.v6, Round.heard, Round.findings, Round.legA, Round.legAaaa, hleg, Found.afterA,
      LegOutcome.isAnswered, LegOutcome.findings, answeredBy_eq, Found.fold]

/-- A round with one. -/
theorem after_concat_some {a x : Except UpstreamCause Message}
    (ha : (h.legOutcome .a a).address? = none) (hv6 : (Found.after h rounds).v6Fallback = none) :
    Found.after h (rounds ++ [⟨server, a, some x⟩]) =
      ((Found.after h rounds).afterA server (h.legOutcome .a a)).afterAaaa server
        (h.legOutcome .a a).isAnswered (h.legOutcome .aaaa x) := by
  rw [Found.after_concat]
  rcases hleg : h.legOutcome .a a with ip | (_ | _) | e
  · rw [hleg] at ha
    cases ha
  all_goals
    rcases hleg' : h.legOutcome .aaaa x with _ | (_ | _) | _ <;>
      simp [Round.v6, Round.heard, Round.findings, Round.legA, Round.legAaaa, hleg, hleg',
        Found.afterA, Found.afterAaaa, LegOutcome.isAnswered, LegOutcome.findings,
        LegOutcome.address?, answeredBy_eq, Found.fold, hv6]

/-- **The AAAA leg** ends the round. -/
theorem tryAaaa_of_hasTrace {found : Found} (ha : (h.legOutcome .a a).address? = none)
    (ht : (h.tryAaaa aaaaQuery server (h.legOutcome .a a).isAnswered
      ((Found.after h rounds).afterA server (h.legOutcome .a a))).HasTrace t found) :
    ∃ aaaa, t = aaaa.toList.map (⟨.query server aaaaQuery, ·⟩) ∧
      found = Found.after h (rounds ++ [⟨server, a, aaaa⟩]) ∧
      (aaaa = none ↔ (rounds.findSome? (·.v6 h)).isSome = true) := by
  have hv6 : ((Found.after h rounds).afterA server (h.legOutcome .a a)).v6Fallback =
      rounds.findSome? (·.v6 h) := by
    cases h.legOutcome .a a with
    | answered nameMissing => cases nameMissing <;> rfl
    | _ => rfl
  rw [Hickory.tryAaaa, hv6] at ht
  split at ht
  · next hsome =>
    obtain ⟨rfl, rfl⟩ := hasTrace_pure.1 ht
    exact ⟨none, rfl, (after_concat_none ha).symm, iff_of_true rfl hsome⟩
  · next hnone =>
    obtain ⟨t₁, t₂, leg, rfl, h₁, h₂⟩ := hasTrace_bind.1 ht
    obtain ⟨x, rfl, rfl⟩ := hasTrace_runLeg.1 h₁
    refine ⟨some x, ?_⟩
    rw [after_concat_some ha (Option.not_isSome_iff_eq_none.1 hnone)]
    cases hleg : h.legOutcome .aaaa x <;> rw [hleg] at h₂ <;>
      obtain ⟨rfl, rfl⟩ := hasTrace_pure.1 h₂ <;>
      exact ⟨rfl, rfl, iff_of_false nofun hnone⟩

/-- The rounds of a walk, after those before it: one for each resolver that it comes to, in order,
and an AAAA leg in each unless there is an address already. -/
structure Asked (h : Hickory Name) (before rounds : List Round) (servers : List IpAddr) : Prop where
  prefix_servers : rounds.map (·.server) <+: servers
  aaaa_eq_none : ∀ pre r post, rounds = pre ++ r :: post →
    (r.aaaa = none ↔ (r.v4 h).isSome = true ∨ ((before ++ pre).findSome? (·.v6 h)).isSome = true)

theorem eq_of_singleton_split {α : Type} {x y : α} {pre post : List α}
    (hsplit : [x] = pre ++ y :: post) : pre = [] ∧ y = x := by
  rcases List.append_eq_cons_iff.1 hsplit.symm with ⟨rfl, hnil⟩ | ⟨pre', -, hnil⟩
  · exact ⟨rfl, (List.cons.inj hnil).1⟩
  · cases (List.append_eq_nil_iff.1 hnil.symm).2

variable {before : List Round}

variable {r : Round}

/-- A round that gives an IPv4 address is the last one. -/
theorem Asked.last (hv4 : (r.v4 h).isSome = true) (haaaa : r.aaaa = none) :
    Asked h before [r] (r.server :: servers) where
  prefix_servers := ⟨servers, rfl⟩
  aaaa_eq_none pre r' post hsplit := by
    obtain ⟨rfl, rfl⟩ := eq_of_singleton_split hsplit
    exact iff_of_true haaaa (.inl hv4)

theorem Asked.cons (hv4 : r.v4 h = none)
    (haaaa : r.aaaa = none ↔ (before.findSome? (·.v6 h)).isSome = true)
    (hrest : Asked h (before ++ [r]) rounds servers) :
    Asked h before (r :: rounds) (r.server :: servers) where
  prefix_servers := by
    rw [List.map_cons]
    exact List.cons_prefix_cons.2 ⟨rfl, hrest.prefix_servers⟩
  aaaa_eq_none pre r' post hsplit := by
    cases pre with
    | nil =>
      obtain ⟨rfl, -⟩ := List.cons.inj hsplit
      rw [List.append_nil, hv4, haaaa]
      exact (or_iff_right nofun).symm
    | cons r₁ pre =>
      obtain ⟨rfl, htail⟩ := List.cons.inj hsplit
      rw [hrest.aaaa_eq_none pre r' post htail, List.append_assoc, List.singleton_append]

/-- How a walk ends: at an IPv4 address, or after every resolver with the accumulators of all
rounds. -/
def WalkEnds (h : Hickory Name) (before rounds : List Round) (servers : List IpAddr) :
    Except Bootstrapped Found → Prop
  | .error b => rounds.findSome? (·.v4 h) = some b
  | .ok found => rounds.findSome? (·.v4 h) = none ∧ rounds.map (·.server) = servers ∧
    found = Found.after h (before ++ rounds)

/-- **The walk**, from any resolver on. -/
theorem walk_of_hasTrace {res : Except Bootstrapped Found}
    (ht : (h.walk aQuery aaaaQuery servers (Found.after h before)).HasTrace t res) :
    ∃ rounds, t = rounds.flatMap (·.exchanges aQuery aaaaQuery) ∧ Asked h before rounds servers ∧
      WalkEnds h before rounds servers res := by
  induction servers generalizing before t with
  | nil =>
    obtain ⟨rfl, rfl⟩ := hasTrace_pure.1 ht
    exact ⟨[], rfl, ⟨List.prefix_rfl, by simp⟩, rfl, rfl, by rw [List.append_nil]⟩
  | cons server servers ih =>
    obtain ⟨t₁, t₂, leg, rfl, h₁, h₂⟩ := hasTrace_bind.1 ht
    obtain ⟨a, rfl, rfl⟩ := hasTrace_runLeg.1 h₁
    -- the walk goes on if the A leg carries no address
    have hgoes (ha : (h.legOutcome .a a).address? = none)
        (hrest : (h.tryAaaa aaaaQuery server (h.legOutcome .a a).isAnswered
          ((Found.after h before).afterA server (h.legOutcome .a a)) >>=
            h.walk aQuery aaaaQuery servers).HasTrace t₂ res) :
        ∃ rounds, [⟨.query server aQuery, a⟩] ++ t₂ =
            rounds.flatMap (·.exchanges aQuery aaaaQuery) ∧
          Asked h before rounds (server :: servers) ∧
          WalkEnds h before rounds (server :: servers) res := by
      obtain ⟨t₃, t₄, found, rfl, h₃, h₄⟩ := hasTrace_bind.1 hrest
      obtain ⟨aaaa, rfl, rfl, haaaa⟩ := tryAaaa_of_hasTrace ha h₃
      obtain ⟨rounds, rfl, hasked, hres⟩ := ih h₄
      have hv4 : Round.v4 h ⟨server, a, aaaa⟩ = none := by rw [Round.v4, Round.legA, ha]; rfl
      refine ⟨⟨server, a, aaaa⟩ :: rounds, by simp [Round.exchanges], .cons hv4 haaaa hasked, ?_⟩
      have hfirst : (⟨server, a, aaaa⟩ :: rounds).findSome? (·.v4 h) =
          rounds.findSome? (·.v4 h) := List.findSome?_cons_of_isNone (by rw [hv4]; rfl)
      cases res with
      | error b => exact hfirst.trans hres
      | ok found =>
        obtain ⟨hnone, hservers, rfl⟩ := hres
        exact ⟨hfirst.trans hnone, congrArg (server :: ·) hservers, by rw [List.append_assoc]; rfl⟩
    cases hleg : h.legOutcome .a a with
    | address ip =>
      rw [hleg] at h₂
      obtain ⟨rfl, rfl⟩ := hasTrace_pure.1 h₂
      have hv4 : Round.v4 h ⟨server, a, none⟩ = some ⟨ip, .answered server⟩ := by
        simp [Round.v4, Round.legA, hleg, LegOutcome.address?]
      exact ⟨[⟨server, a, none⟩], rfl, .last (by rw [hv4]; rfl) rfl, by simp [WalkEnds, hv4]⟩
    | answered nameMissing =>
      rw [hleg] at h₂
      exact hgoes (by rw [hleg]; rfl) (by rw [hleg]; exact h₂)
    | failed e =>
      rw [hleg] at h₂
      exact hgoes (by rw [hleg]; rfl) (by rw [hleg]; exact h₂)

/-! ### Who replied -/

/-- A resolver returned a parseable reply. -/
def Replied (h : Hickory Name) (t : List (Exchange BootOp.Ans)) (s : IpAddr) : Prop :=
  ∃ wire reply, ⟨.query s wire, .ok reply⟩ ∈ t ∧ (h.parseAddrs reply).isSome = true

variable {x : Except UpstreamCause Message}

theorem parses_of_legOutcome (hleg : ∀ e, h.legOutcome rtype x ≠ .failed e) :
    ∃ reply, x = .ok reply ∧ (h.parseAddrs reply).isSome = true := by
  rcases x with cause | reply
  · exact absurd rfl (hleg _)
  · refine ⟨reply, rfl, ?_⟩
    cases hparse : h.parseAddrs reply with
    | some parsed => rfl
    | none => exact absurd (by simp [Hickory.legOutcome, hparse]) (hleg .malformedReply)

theorem replied_of_legA (hr : r ∈ rounds) (hleg : ∀ e, r.legA h ≠ .failed e) :
    Replied h (rounds.flatMap (·.exchanges aQuery aaaaQuery)) r.server := by
  obtain ⟨reply, ha, hparses⟩ := parses_of_legOutcome hleg
  refine ⟨aQuery, reply, List.mem_flatMap.2 ⟨r, hr, ?_⟩, hparses⟩
  rw [Round.exchanges, ha]
  exact .head _

theorem replied_of_legAaaa (hr : r ∈ rounds) (hsome : r.legAaaa h = some leg)
    (hleg : ∀ e, leg ≠ .failed e) :
    Replied h (rounds.flatMap (·.exchanges aQuery aaaaQuery)) r.server := by
  obtain ⟨x, hx, rfl⟩ := Option.map_eq_some_iff.1 hsome
  obtain ⟨reply, rfl, hparses⟩ := parses_of_legOutcome hleg
  refine ⟨aaaaQuery, reply, List.mem_flatMap.2 ⟨r, hr, ?_⟩, hparses⟩
  rw [Round.exchanges, hx]
  exact .tail _ (.head _)

theorem LegOutcome.ne_failed_of_address? {ip : IpAddr} (hip : leg.address? = some ip)
    (e : BootstrapError) : leg ≠ .failed e := by
  rintro rfl
  cases hip

theorem LegOutcome.ne_failed_of_isAnswered (ha : leg.isAnswered = true) (e : BootstrapError) :
    leg ≠ .failed e := by
  rintro rfl
  cases ha

theorem replied_of_v4 {b : Bootstrapped} (hb : rounds.findSome? (·.v4 h) = some b) :
    ∃ r ∈ rounds, b.via = .answered r.server ∧
      Replied h (rounds.flatMap (·.exchanges aQuery aaaaQuery)) r.server := by
  obtain ⟨r, hr, hv4⟩ := List.exists_of_findSome?_eq_some hb
  obtain ⟨ip, hip, rfl⟩ := Option.map_eq_some_iff.1 hv4
  exact ⟨r, hr, rfl, replied_of_legA hr (LegOutcome.ne_failed_of_address? hip)⟩

theorem replied_of_v6 {b : Bootstrapped} (hb : rounds.findSome? (·.v6 h) = some b) :
    ∃ r ∈ rounds, b.via = .answered r.server ∧
      Replied h (rounds.flatMap (·.exchanges aQuery aaaaQuery)) r.server := by
  obtain ⟨r, hr, hv6⟩ := List.exists_of_findSome?_eq_some hb
  obtain ⟨ip, hip, rfl⟩ := Option.map_eq_some_iff.1 hv6
  obtain ⟨leg, hleg, hip⟩ := Option.bind_eq_some_iff.1 hip
  exact ⟨r, hr, rfl, replied_of_legAaaa hr hleg (LegOutcome.ne_failed_of_address? hip)⟩

theorem replied_of_heard {s : IpAddr} (hs : rounds.findSome? (·.heard h) = some s) :
    ∃ r ∈ rounds, s = r.server ∧
      Replied h (rounds.flatMap (·.exchanges aQuery aaaaQuery)) r.server := by
  obtain ⟨r, hr, hheard⟩ := List.exists_of_findSome?_eq_some hs
  rw [Round.heard] at hheard
  split at hheard
  · next hanswered =>
    refine ⟨r, hr, (Option.some.inj hheard).symm, ?_⟩
    rcases Bool.or_eq_true _ _ ▸ hanswered with ha | haaaa
    · exact replied_of_legA hr (LegOutcome.ne_failed_of_isAnswered ha)
    · obtain ⟨leg, hleg, ha⟩ := (Option.any_eq_true _ _).1 haaaa
      exact replied_of_legAaaa hr hleg (LegOutcome.ne_failed_of_isAnswered ha)
  · cases hheard

/-! ### What is reported -/

/-- The resolver says that there is no address: by an NXDOMAIN, or by two answers without one. -/
def Round.SaysNone (h : Hickory Name) (r : Round) : Prop :=
  r.legA h = .answered true ∨ r.legAaaa h = some (.answered true) ∨
    ∃ x y, r.legA h = .answered x ∧ r.legAaaa h = some (.answered y)

theorem classify_ne_noAnswer (cause : UpstreamCause) : classify cause ≠ .noAnswer := by
  cases cause <;> decide

theorem failed_ne_noAnswer {e : BootstrapError} (hleg : h.legOutcome rtype x = .failed e) :
    e ≠ .noAnswer := by
  rcases x with cause | reply
  · cases hleg
    exact classify_ne_noAnswer cause
  · rw [Hickory.legOutcome] at hleg
    split at hleg
    · split at hleg <;> cases hleg
    · cases hleg
      decide

theorem noAnswer_mem_leg {conclusive : Bool} :
    .noAnswer ∈ (h.legOutcome rtype x).findings conclusive ↔
      ∃ nameMissing, h.legOutcome rtype x = .answered nameMissing ∧
        (conclusive = true ∨ nameMissing = true) := by
  cases hleg : h.legOutcome rtype x with
  | address ip => simp [LegOutcome.findings]
  | answered nameMissing => cases conclusive <;> cases nameMissing <;> simp [LegOutcome.findings]
  | failed e => simp [LegOutcome.findings, (failed_ne_noAnswer hleg).symm]

theorem LegOutcome.isAnswered_iff :
    leg.isAnswered = true ↔ ∃ nameMissing, leg = .answered nameMissing := by
  cases leg <;> simp [LegOutcome.isAnswered]

/-- **`NoAnswer` counts** for a resolver only if it says that there is no address. -/
theorem noAnswer_mem_findings : .noAnswer ∈ r.findings h ↔ r.SaysNone h := by
  have hA : .noAnswer ∈ (r.legA h).findings false ↔ r.legA h = .answered true := by
    rw [Round.legA, noAnswer_mem_leg]
    simp
  have hAaaa : .noAnswer ∈ ((r.legAaaa h).map (·.findings (r.legA h).isAnswered)).getD [] ↔
      ∃ y, r.legAaaa h = some (.answered y) ∧ ((r.legA h).isAnswered = true ∨ y = true) := by
    rw [Round.legAaaa]
    cases r.aaaa with
    | none => simp
    | some x => simpa using noAnswer_mem_leg
  rw [Round.findings, List.mem_append, hA, hAaaa, LegOutcome.isAnswered_iff]
  constructor
  · rintro (hmissing | ⟨y, hy, ⟨x, hx⟩ | rfl⟩)
    · exact .inl hmissing
    · exact .inr (.inr ⟨x, y, hx, hy⟩)
    · exact .inr (.inl hy)
  · rintro (hmissing | hmissing | ⟨x, y, hx, hy⟩)
    · exact .inl hmissing
    · exact .inr ⟨true, hmissing, .inr rfl⟩
    · exact .inr ⟨y, hy, .inl ⟨x, hx⟩⟩

/-- A round without an address, whose AAAA leg was asked, finds something. -/
theorem findings_ne_nil (hv4 : r.v4 h = none) (hv6 : r.v6 h = none) (haaaa : r.aaaa ≠ none) :
    r.findings h ≠ [] := by
  obtain ⟨x, hx⟩ := Option.ne_none_iff_exists'.1 haaaa
  have hA : (r.legA h).address? = none := Option.map_eq_none_iff.1 hv4
  have hAaaa : (h.legOutcome .aaaa x).address? = none := by
    have hnone := Option.map_eq_none_iff.1 hv6
    rwa [Round.legAaaa, hx] at hnone
  rw [Round.findings, Round.legAaaa, hx]
  cases hlegA : r.legA h with
  | address ip =>
    rw [hlegA] at hA
    cases hA
  | failed e => exact List.cons_ne_nil _ _
  | answered nameMissing =>
    cases hlegAaaa : h.legOutcome .aaaa x with
    | address ip =>
      rw [hlegAaaa] at hAaaa
      cases hAaaa
    | failed e => simp [hlegAaaa, LegOutcome.findings]
    | answered nameMissing' => simp [hlegAaaa, LegOutcome.findings, LegOutcome.isAnswered]

/-- The finding that a bootstrap without an address reports: the highest-ranked one, the first among
equals, and `NoAnswer` if there is no resolver. -/
def Reported (h : Hickory Name) (servers : List IpAddr) (rounds : List Round)
    (failure : BootstrapError) : Prop :=
  if servers = [] then failure = .noAnswer
  else (rounds.flatMap (·.findings h)).argmax BootstrapError.rank = some failure

/-- **What a bootstrap comes to**, from its rounds: `os` is what it asks of the OS resolver. -/
structure Resolved (h : Hickory Name) (host : List Char) (dns : DnsConfig)
    (aQuery aaaaQuery : Message) (t : List (Exchange BootOp.Ans)) (rounds : List Round)
    (os : List (Exchange BootOp.Ans)) (res : Except BootstrapError Bootstrapped) : Prop where
  trace_eq : t = rounds.flatMap (·.exchanges aQuery aaaaQuery) ++ os
  asked : Asked h [] rounds dns.servers
  /-- The first IPv4 address is returned, -/
  v4 : ∀ b, rounds.findSome? (·.v4 h) = some b → os = [] ∧ res = .ok b
  /-- else, after all resolvers, the first IPv6 address, -/
  all : rounds.findSome? (·.v4 h) = none → rounds.map (·.server) = dns.servers
  v6 : rounds.findSome? (·.v4 h) = none → ∀ b, rounds.findSome? (·.v6 h) = some b →
    os = [] ∧ res = .ok b
  /-- else what the OS resolver makes of it if that is allowed, and otherwise the finding. -/
  unresolved : rounds.findSome? (·.v4 h) = none → rounds.findSome? (·.v6 h) = none →
    ∃ failure, Reported h dns.servers rounds failure ∧
      if dns.allowInsecureBootstrap then
        ∃ x, os = [⟨.lookupHost host, x⟩] ∧ res = fromOs (rounds.findSome? (·.heard h)) failure x
      else os = [] ∧ res = .error failure
  via : ∀ ip s, res = .ok ⟨ip, .answered s⟩ → s ∈ dns.servers ∧ Replied h t s
  noAnswer : ∀ r ∈ rounds, .noAnswer ∈ r.findings h ↔ r.SaysNone h

theorem reported_of_walk (hasked : Asked h [] rounds servers)
    (hservers : rounds.map (·.server) = servers) (hv4 : rounds.findSome? (·.v4 h) = none)
    (hv6 : rounds.findSome? (·.v6 h) = none) :
    Reported h servers rounds ((Found.after h rounds).worst.getD .noAnswer) := by
  rw [List.findSome?_eq_none_iff] at hv4 hv6
  rw [Reported]
  split
  · next hnil =>
    obtain rfl := List.map_eq_nil_iff.1 (hservers.trans hnil)
    rfl
  · next hne =>
    rcases hargmax : (rounds.flatMap (·.findings h)).argmax BootstrapError.rank with - | failure
    · -- every round finds something, and there is one
      have hrounds : rounds ≠ [] := fun hnil ↦ hne (by rw [← hservers, hnil]; rfl)
      obtain ⟨r, post, rfl⟩ := List.exists_cons_of_ne_nil hrounds
      have haaaa : r.aaaa ≠ none := by
        rw [Ne, hasked.aaaa_eq_none [] r post rfl, hv4 r List.mem_cons_self]
        simp
      have hnil := List.flatMap_eq_nil_iff.1 (List.argmax_eq_none.1 hargmax) r (.head _)
      exact absurd hnil
        (findings_ne_nil (hv4 r (.head _)) (hv6 r (.head _)) haaaa)
    · rw [Found.after, hargmax]
      rfl

theorem mem_servers_of_asked (hasked : Asked h [] rounds servers) (hr : r ∈ rounds) :
    r.server ∈ servers := hasked.prefix_servers.subset (List.mem_map_of_mem hr)

theorem Replied.append_right {s : IpAddr} (hs : Replied h t s) (os : List (Exchange BootOp.Ans)) :
    Replied h (t ++ os) s := by
  obtain ⟨wire, reply, hmem, hparses⟩ := hs
  exact ⟨wire, reply, List.mem_append_left _ hmem, hparses⟩

theorem via_of_fromOs {reachable : Option IpAddr} {failure : BootstrapError}
    {x : Except String (List SocketAddr)} {ip s : IpAddr}
    (hres : fromOs reachable failure x = .ok ⟨ip, .answered s⟩) : reachable = some s := by
  rcases x with e | addrs
  · cases hres
  · rw [fromOs] at hres
    split at hres
    · cases reachable with
      | none => cases hres
      | some s' =>
        obtain ⟨-, hvia⟩ := Bootstrapped.mk.inj (Except.ok.inj hres)
        exact congrArg some (PinSource.answered.inj hvia)
    · cases hres

theorem buildQueries_error {host : List Char} {e : BootstrapError}
    (he : h.buildQueries host = .error e) : e = .invalidName := by
  have hbuild {txId : UInt16} {rtype : RecordType} {e : BootstrapError}
      (he : h.buildQuery host txId rtype = .error e) : e = .invalidName := by
    rw [Hickory.buildQuery] at he
    split at he
    · cases he
    · exact (Except.error.inj he).symm
  rw [Hickory.buildQueries] at he
  cases ha : h.buildQuery host 0x0001 .a with
  | error e' =>
    rw [ha] at he
    cases he
    exact hbuild ha
  | ok aQuery =>
    rw [ha] at he
    cases haaaa : h.buildQuery host 0x0002 .aaaa with
    | error e' =>
      rw [haaaa] at he
      cases he
      exact hbuild haaaa
    | ok aaaaQuery =>
      rw [haaaa] at he
      cases he

section Resolved

variable {host : List Char} {dns : DnsConfig} {b : Bootstrapped}

theorem resolved_of_v4 (hasked : Asked h [] rounds dns.servers)
    (hv4 : rounds.findSome? (·.v4 h) = some b) :
    Resolved h host dns aQuery aaaaQuery (rounds.flatMap (·.exchanges aQuery aaaaQuery) ++ [])
      rounds [] (.ok b) where
  trace_eq := rfl
  asked := hasked
  v4 b' hb' := ⟨rfl, by rw [Option.mem_unique hv4 hb']⟩
  all hnone := absurd (hv4.symm.trans hnone) nofun
  v6 hnone := absurd (hv4.symm.trans hnone) nofun
  unresolved hnone := absurd (hv4.symm.trans hnone) nofun
  via ip s hres := by
    obtain ⟨r, hr, hvia, hreplied⟩ := replied_of_v4 hv4
    rw [Except.ok.inj hres] at hvia
    cases hvia
    exact ⟨mem_servers_of_asked hasked hr, hreplied.append_right []⟩
  noAnswer _ _ := noAnswer_mem_findings

theorem resolved_of_v6 (hasked : Asked h [] rounds dns.servers)
    (hservers : rounds.map (·.server) = dns.servers) (hv4 : rounds.findSome? (·.v4 h) = none)
    (hv6 : rounds.findSome? (·.v6 h) = some b) :
    Resolved h host dns aQuery aaaaQuery (rounds.flatMap (·.exchanges aQuery aaaaQuery) ++ [])
      rounds [] (.ok b) where
  trace_eq := rfl
  asked := hasked
  v4 b' hb' := absurd (hv4.symm.trans hb') nofun
  all _ := hservers
  v6 _ b' hb' := ⟨rfl, by rw [Option.mem_unique hv6 hb']⟩
  unresolved _ hnone := absurd (hv6.symm.trans hnone) nofun
  via ip s hres := by
    obtain ⟨r, hr, hvia, hreplied⟩ := replied_of_v6 hv6
    rw [Except.ok.inj hres] at hvia
    cases hvia
    exact ⟨mem_servers_of_asked hasked hr, hreplied.append_right []⟩
  noAnswer _ _ := noAnswer_mem_findings

/-- The end of a bootstrap to which no resolver gave an address. -/
def lastResort (h : Hickory Name) (host : List Char) (dns : DnsConfig) (rounds : List Round) :
    BootM (Except BootstrapError Bootstrapped) := do
  let failure := (Found.after h rounds).worst.getD .noAnswer
  if dns.allowInsecureBootstrap then
    return fromOs (Found.after h rounds).reachable failure (← Prog.perform (.lookupHost host))
  else return .error failure

theorem resolved_of_none {os : List (Exchange BootOp.Ans)}
    {res : Except BootstrapError Bootstrapped} (hasked : Asked h [] rounds dns.servers)
    (hservers : rounds.map (·.server) = dns.servers) (hv4 : rounds.findSome? (·.v4 h) = none)
    (hv6 : rounds.findSome? (·.v6 h) = none) (ht : (lastResort h host dns rounds).HasTrace os res) :
    Resolved h host dns aQuery aaaaQuery (rounds.flatMap (·.exchanges aQuery aaaaQuery) ++ os)
      rounds os res where
  trace_eq := rfl
  asked := hasked
  v4 b' hb' := absurd (hv4.symm.trans hb') nofun
  all _ := hservers
  v6 _ b' hb' := absurd (hv6.symm.trans hb') nofun
  unresolved _ _ := by
    refine ⟨_, reported_of_walk hasked hservers hv4 hv6, ?_⟩
    rw [lastResort] at ht
    split at ht
    · next hallow =>
      rw [if_pos hallow]
      obtain ⟨t₁, t₂, x, rfl, h₁, h₂⟩ := hasTrace_bind.1 ht
      obtain rfl := Prog.hasTrace_perform.1 h₁
      obtain ⟨rfl, rfl⟩ := hasTrace_pure.1 h₂
      exact ⟨x, rfl, rfl⟩
    · next hallow =>
      rw [if_neg hallow]
      exact hasTrace_pure.1 ht
  via ip s hres := by
    rw [lastResort] at ht
    split at ht
    · obtain ⟨t₁, t₂, x, rfl, h₁, h₂⟩ := hasTrace_bind.1 ht
      obtain ⟨rfl, rfl⟩ := hasTrace_pure.1 h₂
      obtain ⟨r, hr, rfl, hreplied⟩ := replied_of_heard (via_of_fromOs hres)
      exact ⟨mem_servers_of_asked hasked hr, hreplied.append_right _⟩
    · obtain ⟨-, rfl⟩ := hasTrace_pure.1 ht
      cases hres
  noAnswer _ _ := noAnswer_mem_findings

/-- **Bootstrap resolution**: of a host that is not an IP literal, for every list of resolvers and
every result of every query. -/
theorem resolveViaDohWith_spec {res : Except BootstrapError Bootstrapped}
    (hlit : IpAddr.fromStr host = none) (ht : (h.resolveViaDohWith host dns).HasTrace t res) :
    match h.buildQueries host with
    | .error _ => t = [] ∧ res = .error .invalidName
    | .ok (aQuery, aaaaQuery) =>
      ∃ rounds os, Resolved h host dns aQuery aaaaQuery t rounds os res := by
  rw [Hickory.resolveViaDohWith, hlit] at ht
  cases hqueries : h.buildQueries host with
  | error e =>
    rw [hqueries] at ht
    obtain ⟨rfl, rfl⟩ := hasTrace_pure.1 ht
    exact ⟨rfl, congrArg _ (buildQueries_error hqueries)⟩
  | ok queries =>
    obtain ⟨aQuery, aaaaQuery⟩ := queries
    rw [hqueries] at ht
    obtain ⟨t₁, t₂, walked, rfl, h₁, h₂⟩ := hasTrace_bind.1 ht
    obtain ⟨rounds, rfl, hasked, hends⟩ := @walk_of_hasTrace _ _ _ _ _ _ [] _ h₁
    rcases walked with b | found
    · obtain ⟨rfl, rfl⟩ := hasTrace_pure.1 h₂
      exact ⟨rounds, [], resolved_of_v4 hasked hends⟩
    · obtain ⟨hv4, hservers, rfl⟩ := hends
      rw [List.nil_append] at h₂
      cases hv6 : rounds.findSome? (·.v6 h) with
      | some b =>
        have hfallback : (Found.after h rounds).v6Fallback = some b := hv6
        dsimp only at h₂
        rw [hfallback] at h₂
        obtain ⟨rfl, rfl⟩ := hasTrace_pure.1 h₂
        exact ⟨rounds, [], resolved_of_v6 hasked hservers hv4 hv6⟩
      | none =>
        have hfallback : (Found.after h rounds).v6Fallback = none := hv6
        dsimp only at h₂
        rw [hfallback] at h₂
        exact ⟨rounds, t₂, resolved_of_none hasked hservers hv4 hv6 h₂⟩

end Resolved

/-- A query of class IN, as it goes over the wire. -/
def sampleQuery (txId : UInt16) (name : List Char) (rtype : RecordType) : Message :=
  let labels := (name.splitOn '.').flatMap fun label ↦
    UInt8.ofNat label.length :: label.map fun c ↦ UInt8.ofNat c.toNat
  [0, txId.toUInt8, 1, 0, 0, 1, 0, 0, 0, 0, 0, 0] ++ labels ++
    [0, if rtype = .a then 1 else 28, 0, 1]

/-- A reply to an A query of `example.com`. -/
def sampleReply : Message :=
  [0, 1, 0x81, 0x80, 0, 1, 0, 1, 0, 0, 0, 0] ++
    [7, 101, 120, 97, 109, 112, 108, 101, 3, 99, 111, 109, 0, 0, 1, 0, 1] ++
    [0xc0, 12, 0, 1, 0, 1, 0, 0, 0, 60, 0, 4, 203, 0, 113, 7]

/-- The library, on that host and that reply. -/
def sampleHickory : Hickory (List Char) where
  fromAscii cs := some cs
  toVec txId name rtype := some (sampleQuery txId name rtype)
  fromVec m :=
    if m = sampleReply then some ⟨[some (IpAddr.ofOctets 203 0 113 7)], false⟩ else none

/-- The first resolver is down, and the second one replies. -/
def secondReplies (n : Nat) : (o : BootOp) → o.Ans
  | .query _ _ => if n < 2 then .error .unreachable else .ok sampleReply
  | .lookupHost _ => .error ""

/-- Two resolvers. -/
def sampleDns : DnsConfig :=
  ⟨true, [IpAddr.ofOctets 9 9 9 9, IpAddr.ofOctets 1 1 1 1], .https, false⟩

/-- A bootstrap over them. -/
def sampleBootstrap : List (Exchange BootOp.Ans) × Except BootstrapError Bootstrapped :=
  Prog.answered secondReplies 0 (sampleHickory.resolveViaDohWith "example.com".toList sampleDns)

theorem resolved_sampleBootstrap :
    ∃ aQuery aaaaQuery rounds os, Resolved sampleHickory "example.com".toList sampleDns aQuery
      aaaaQuery sampleBootstrap.1 rounds os sampleBootstrap.2 :=
  ⟨_, _, resolveViaDohWith_spec (show IpAddr.fromStr "example.com".toList = none by decide)
    (Prog.hasTrace_answered secondReplies 0
      (sampleHickory.resolveViaDohWith "example.com".toList sampleDns))⟩

/-- **Without a resolver there is no finding**, and `NoAnswer` is reported. -/
theorem noAnswer_without_resolver :
    (sampleHickory.resolveViaDohWith "example.com".toList ⟨true, [], .https, false⟩).HasTrace []
        (.error .noAnswer) ∧
      ¬∃ rounds failure, Asked sampleHickory [] rounds [] ∧
        (rounds.flatMap (·.findings sampleHickory)).argmax BootstrapError.rank = some failure := by
  refine ⟨.pure _, ?_⟩
  rintro ⟨rounds, failure, hasked, hfailure⟩
  have hnil : rounds = [] := List.map_eq_nil_iff.1 (List.prefix_nil.1 hasked.prefix_servers)
  rw [hnil] at hfailure
  cases hfailure

end Hole.Dns
