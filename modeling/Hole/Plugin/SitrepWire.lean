import Hole.Plugin.Sitrep
import Hole.Plugin.Wiring

/-!
# The wire between ex-ray and garter

The lines that ex-ray prints (`ex-ray/sitrep.go`), as `encoding/json` writes them, and what garter
reads of them. A text of Go is bytes, of any kind: those that are no character are written as the
replacement character (`goRunes`).

What ex-ray reports is what it binds: the address as it is canonical, with the port as the operator
spelled it, and the transport of the one listener that `generateConfig` builds. `sitrep_agrees` is
the agreement, with that of garter with itself.
-/

namespace Hole.Plugin

open Text

/-! ### Texts of Go -/

/-- The characters of a text of Go; a byte that starts none is none. -/
def goRunes (bytes : List UInt8) : List (Option Char) :=
  if bytes = [] then []
  else
    match bytes.toByteArray.utf8DecodeChar? 0 with
    | some c => some c :: goRunes (bytes.drop c.utf8Size)
    | none => none :: goRunes bytes.tail
termination_by bytes.length
decreasing_by
  all_goals
    have hpos : 0 < bytes.length := List.length_pos_iff.2 ‹_›
    simp only [List.length_drop, List.length_tail]
  · have hsize := c.utf8Size_pos
    omega
  · omega

theorem goRunes_nil : goRunes [] = [] := by rw [goRunes, if_pos rfl]

/-- The bytes of a text are its characters. -/
theorem goRunes_utf8 (s : List Char) : goRunes (utf8 s) = s.map some := by
  induction s with
  | nil => exact goRunes_nil
  | cons c s ih =>
    have hne : utf8 (c :: s) ≠ [] := by
      have hlength : (String.utf8EncodeChar c).length = c.utf8Size := String.length_utf8EncodeChar c
      intro hnil
      have hzero : (String.utf8EncodeChar c).length = 0 := by
        rw [(List.append_eq_nil_iff.1 hnil).1, List.length_nil]
      have hpos := c.utf8Size_pos
      omega
    have hdecode : (utf8 (c :: s)).toByteArray.utf8DecodeChar? 0 = some c := by
      rw [utf8_cons, List.toByteArray_append]
      exact ByteArray.utf8DecodeChar?_utf8EncodeChar_append
    have hdrop : (utf8 (c :: s)).drop c.utf8Size = utf8 s := by
      rw [utf8_cons, ← String.length_utf8EncodeChar c, List.drop_left]
    rw [goRunes, if_neg hne, hdecode]
    dsimp only
    rw [hdrop, ih, List.map_cons]

/-- The characters that `encoding/json` escapes beside the control characters: those of HTML, and
the two line ends of JavaScript. -/
def htmlEscaped (c : Char) : Bool := c = '<' || c = '>' || c = '&' || c = '\u2028' || c = '\u2029'

/-- A character as it is written. -/
def writeRune : Option Char → List Char
  | some c => Json.writeChar htmlEscaped c
  | none => Json.unitText '\ufffd'.toNat

theorem writes_writeRune (r : Option Char) : Json.Writes (writeRune r) (r.getD '\ufffd') := by
  cases r with
  | none => exact .unit (by decide)
  | some c =>
    refine Json.writes_writeChar (fun c hc ↦ ?_) c
    simp only [htmlEscaped, Bool.or_eq_true, decide_eq_true_eq] at hc
    obtain (((rfl | rfl) | rfl) | rfl) | rfl := hc <;> decide

theorem newline_not_mem_writeRune (r : Option Char) : '\n' ∉ writeRune r := by
  cases r with
  | none => exact Json.newline_not_mem_unitText _
  | some c => exact Json.newline_not_mem_writeChar _ c

/-- What is read of a text of Go. -/
def goMeans (bytes : List UInt8) : List Char := (goRunes bytes).map (·.getD '\ufffd')

theorem goMeans_utf8 (s : List Char) : goMeans (utf8 s) = s := by
  rw [goMeans, goRunes_utf8, List.map_map]
  exact List.map_id _

/-- The texts of `encoding/json`. -/
def goQuotes : Json.Quotes (List UInt8) where
  quote bytes := (goRunes bytes).flatMap writeRune
  means := goMeans
  text_quote _ rest := Json.text_flatMap writes_writeRune _ rest

/-! ### The lines -/

/-- `emitReady`. -/
def readyLine (listen : List Char) (transports : List (List Char)) : List Char :=
  Json.render goQuotes [("event".toList, .text (utf8 "ready".toList)),
    ("listen".toList, .text (utf8 listen)), ("transports".toList, .texts (transports.map utf8))]

/-- `emitBindConflict`. -/
def bindConflictLine (errno : Int) (addr : List Char) : List Char :=
  Json.render goQuotes [("event".toList, .text (utf8 "bind_conflict".toList)),
    ("errno".toList, .int errno), ("addr".toList, .text (utf8 addr))]

/-- `emitFatal`; every caller leaves the errno out. -/
def fatalLine (detail : List UInt8) : List Char :=
  Json.render goQuotes [("event".toList, .text (utf8 "fatal".toList)),
    ("detail".toList, .text detail)]

theorem newline_not_mem_goQuotes {fields : List (List Char × Json.Field (List UInt8))}
    (hkeys : ∀ m ∈ fields, ∀ c ∈ m.1, Json.isPlain c = true) :
    '\n' ∉ Json.render goQuotes fields := by
  refine Json.newline_not_mem_render goQuotes (fun bytes hmem ↦ ?_) hkeys
  obtain ⟨r, -, hr⟩ := List.mem_flatMap.1 hmem
  exact newline_not_mem_writeRune r hr

/-! ### ex-ray -/

/-- `localListenAddr`: the canonical address, and the port as it is spelled. -/
def localListenAddr (f : Flags) : Except Refusal (List Char) := do
  let canonicalAddr ← checkLocalAddr f.localAddr
  return SocketAddr.joinHostPort canonicalAddr.display.toList f.localPort

/-- `listenerNetwork`. -/
def listenerNetwork (f : Flags) : List Char :=
  if f.server ∧ f.mode = "quic".toList then "udp".toList else "tcp".toList

/-- `main` from its flags on: the instance, and the address that is reported. -/
def startFlags (certs : Flags → Bool) (f : Flags) : Except Refusal (Config × List Char) := do
  registerTCPKeepAlive f
  let _ ← checkPort .localPort f.localPort
  let listenAddr ← localListenAddr f
  let config ← generateConfig certs f
  coreNew config
  return (config, listenAddr)

/-- The stream settings of the one inbound: a server's have the protocol of its mode, a client has
none. -/
def Config.inboundProtocol (config : Config) : Option (List Char) :=
  if config.server then some config.mode else none

/-- What v2ray-core listens on for such settings: a client's is a plain TCP inbound, and of the
protocols only `quic` is not over TCP. -/
def listens (protocol : Option (List Char)) : Transports :=
  if protocol = some "quic".toList then Transports.udp else Transports.tcp

/-- The address that v2ray-core binds. -/
def Config.bound (config : Config) : SocketAddr :=
  ⟨config.listen, BitVec.ofNat 16 config.listenPort⟩

/-- A failure of `Start` that is one of listening: the errno, which is an `int` of C, and the
address that it is about, which may each be missing. -/
structure ListenError where
  errno : Option (Fin (2 ^ 31))
  addr : Option SocketAddr

/-- `String`, of an address of TCP or of UDP: Go writes a v4-mapped address as the one it maps. -/
def goAddrString (addr : SocketAddr) : List Char :=
  SocketAddr.joinHostPort addr.ip.toCanonical.display.toList (SocketAddr.portText addr.port)

/-- `classifyBindError`. -/
def classifyBindError (e : ListenError) : Int × List Char :=
  ((e.errno.map fun n ↦ (n.val : Int)).getD 0, (e.addr.map goAddrString).getD [])

/-- What `main` prints of it. -/
def bindConflictOf (listenAddr : List Char) (e : ListenError) : List Char :=
  let (errno, addr) := classifyBindError e
  bindConflictLine errno (if addr = [] then listenAddr else addr)

/-! ### The agreement -/

section Agreement

variable {certs : Flags → Bool} {f : Flags} {config : Config} {listenAddr : List Char}

theorem ok_of_bind {α β : Type} {x : Except Refusal α} {g : α → Except Refusal β} {b : β}
    (h : (x >>= g) = .ok b) : ∃ a, x = .ok a ∧ g a = .ok b := by
  cases x with
  | error e => cases h
  | ok a => exact ⟨a, rfl, h⟩

theorem builtFrom_of_startFlags (h : startFlags certs f = .ok (config, listenAddr)) :
    BuiltFrom f config ∧
      listenAddr = SocketAddr.joinHostPort config.listen.display.toList f.localPort := by
  obtain ⟨-, -, h⟩ := ok_of_bind h
  obtain ⟨-, -, h⟩ := ok_of_bind h
  obtain ⟨_, haddr, h⟩ := ok_of_bind h
  obtain ⟨_, hgenerate, h⟩ := ok_of_bind h
  obtain ⟨-, -, h⟩ := ok_of_bind h
  cases h
  have hbuilt := ((checks_generate certs f).of_ok hgenerate).2
  refine ⟨hbuilt, ?_⟩
  rw [localListenAddr, checkLocalAddr, hbuilt.listen] at haddr
  exact (Except.ok.inj haddr).symm

/-- The address that is reported is the one that is bound. -/
theorem fromStr_listenAddr (h : startFlags certs f = .ok (config, listenAddr)) :
    FullAddr.fromStr listenAddr = some (FullAddr.ofAddr config.bound) := by
  obtain ⟨hbuilt, rfl⟩ := builtFrom_of_startFlags h
  refine FullAddr.fromStr_joinHostPort config.listen (readPort_of_validPort hbuilt.listenPort) ?_
  intro hmem
  have hport := hbuilt.listenPort
  unfold validPort at hport
  split at hport
  · next hdigits => exact absurd (List.all_eq_true.1 hdigits _ hmem) (by decide)
  · cases hport

/-- The transport that is reported is the one of the listener. -/
theorem ofNames_listenerNetwork (hbuilt : BuiltFrom f config) :
    Transports.ofNames [listenerNetwork f] = listens config.inboundProtocol := by
  rw [Config.inboundProtocol, hbuilt.server, hbuilt.mode, listenerNetwork]
  cases hserver : f.server with
  | false =>
    rw [if_neg (fun h ↦ by cases h.1), if_neg (by rintro ⟨⟩)]
    rfl
  | true =>
    by_cases hmode : f.mode = "quic".toList
    · rw [if_pos ⟨rfl, hmode⟩, if_pos rfl, hmode]
      rfl
    · rw [if_neg (fun h ↦ hmode h.2), if_pos rfl, listens,
        if_neg (fun h ↦ hmode (Option.some.inj h))]
      rfl

theorem fromStr_goAddrString (addr : SocketAddr) :
    FullAddr.fromStr (goAddrString addr) =
      some (FullAddr.ofAddr ⟨addr.ip.toCanonical, addr.port⟩) :=
  FullAddr.fromStr_joinHostPort _ (SocketAddr.readPort_portText _)
    (FullAddr.not_mem_portText (by decide) _)

/-- garter reads an event of a text, which is one line. -/
def Reports (line : List Char) (e : SitrepEvent) : Prop :=
  '\n' ∉ line ∧ SitrepEvent.parseEvent line = some e

theorem reports_of_render {fields : List (List Char × Json.Field (List UInt8))} {e : SitrepEvent}
    (hne : fields ≠ []) (hkeys : fields.all (fun m ↦ m.1.all Json.isPlain) = true)
    (he : SitrepEvent.ofJson (.object (fields.map fun m ↦ (m.1, m.2.json goQuotes))) = some e) :
    Reports (Json.render goQuotes fields) e := by
  have hplain : ∀ m ∈ fields, ∀ c ∈ m.1, Json.isPlain c = true :=
    fun m hm ↦ List.all_eq_true.1 (List.all_eq_true.1 hkeys m hm)
  exact ⟨newline_not_mem_goQuotes hplain,
    (SitrepEvent.parseEvent_render goQuotes hne hplain).trans he⟩

theorem json_text (s : List Char) :
    (Json.Field.text (utf8 s)).json goQuotes = Json.string s :=
  congrArg Json.string (goMeans_utf8 s)

theorem json_texts (ss : List (List Char)) :
    (Json.Field.texts (ss.map utf8)).json goQuotes = Json.array (ss.map Json.string) := by
  rw [Json.Field.json, List.map_map]
  exact congrArg Json.array (List.map_congr_left fun s _ ↦ json_text s)

theorem reports_ready {listen : List Char} {addr : FullAddr}
    (haddr : FullAddr.fromStr listen = some addr) (names : List (List Char)) :
    Reports (readyLine listen names) (.ready addr (Transports.ofNames names)) := by
  refine reports_of_render (List.cons_ne_nil _ _) rfl ?_
  simp only [List.map_cons, List.map_nil, json_text, json_texts]
  exact SitrepEvent.ofJson_ready haddr names

theorem reports_bindConflict {text : List Char} {addr : FullAddr} {i : Int}
    (haddr : FullAddr.fromStr text = some addr) (hi : -2 ^ 31 ≤ i ∧ i < 2 ^ 31) :
    Reports (bindConflictLine i text) (.bindConflict (Int32.ofInt i) addr) := by
  refine reports_of_render (List.cons_ne_nil _ _) rfl ?_
  simp only [List.map_cons, List.map_nil, json_text]
  exact SitrepEvent.ofJson_bindConflict haddr (SitrepEvent.i32Of_intText hi)

theorem reports_fatal (detail : List UInt8) :
    Reports (fatalLine detail) (.fatal (goMeans detail) none) := by
  refine reports_of_render (List.cons_ne_nil _ _) rfl ?_
  simp only [List.map_cons, List.map_nil, json_text]
  exact SitrepEvent.ofJson_fatal (goMeans detail) none

theorem classifyBindError_range (e : ListenError) :
    -2 ^ 31 ≤ (classifyBindError e).1 ∧ (classifyBindError e).1 < 2 ^ 31 := by
  obtain ⟨errno, addr⟩ := e
  cases errno with
  | none =>
    show -2 ^ 31 ≤ (0 : Int) ∧ (0 : Int) < 2 ^ 31
    decide
  | some n =>
    have hn := n.isLt
    simp only [classifyBindError, Option.map_some, Option.getD_some]
    omega

/-- The endpoint that a conflict is about: the one of the error, or the one that was asked for. -/
def ListenError.contended (e : ListenError) (bound : SocketAddr) : SocketAddr :=
  match e.addr with
  | none => bound
  | some addr => ⟨addr.ip.toCanonical, addr.port⟩

theorem reports_bindConflictOf (h : startFlags certs f = .ok (config, listenAddr))
    (e : ListenError) : Reports (bindConflictOf listenAddr e)
      (.bindConflict (Int32.ofInt (classifyBindError e).1)
        (.ofAddr (e.contended config.bound))) := by
  refine reports_bindConflict ?_ (classifyBindError_range e)
  obtain ⟨errno, addr⟩ := e
  cases addr with
  | none => exact fromStr_listenAddr h
  | some addr =>
    have hne : goAddrString addr ≠ [] := by
      unfold goAddrString SocketAddr.joinHostPort
      split <;> simp
    show FullAddr.fromStr (if goAddrString addr = [] then listenAddr else goAddrString addr) = _
    rw [if_neg hne]
    exact fromStr_goAddrString addr

end Agreement

/-- **ex-ray and garter agree on the wire**: what the one prints the other reads as what was bound,
and what garter prints it reads itself, where an address has no flow information. -/
theorem sitrep_agrees :
    (∀ certs f config listenAddr, startFlags certs f = .ok (config, listenAddr) →
      Reports (readyLine listenAddr [listenerNetwork f])
        (.ready (.ofAddr config.bound) (listens config.inboundProtocol)) ∧
      ∀ e : ListenError, Reports (bindConflictOf listenAddr e)
        (.bindConflict (Int32.ofInt (classifyBindError e).1)
          (.ofAddr (e.contended config.bound)))) ∧
      (∀ detail, Reports (fatalLine detail) (.fatal (goMeans detail) none)) ∧
      ∀ e : SitrepEvent, (∀ t ∈ e.transports?, t.Known) →
        (Reports e.serialize e ↔ ∀ addr ∈ e.addr?, addr.flowinfo = 0) := by
  refine ⟨fun certs f config listenAddr h ↦ ⟨?_, reports_bindConflictOf h⟩, reports_fatal,
    fun e hknown ↦ ?_⟩
  · rw [← ofNames_listenerNetwork (builtFrom_of_startFlags h).1]
    exact reports_ready (fromStr_listenAddr h) _
  · rw [Reports, SitrepEvent.parseEvent_serialize hknown,
      and_iff_right (SitrepEvent.newline_not_mem_serialize e), Option.some_inj]
    exact SitrepEvent.dropFlowinfo_eq_self_iff

/-- Flags of a server over QUIC, with a port that is spelled with zeros. -/
def quicFlags : Flags :=
  { localAddr := "::1".toList, localPort := "00443".toList, mode := "quic".toList, server := true }

theorem reports_quicFlags : Reports (readyLine "[::1]:00443".toList ["udp".toList])
    (.ready (.v6 1 443 0 0) Transports.udp) :=
  (sitrep_agrees.1 (fun _ ↦ true) quicFlags _ _ rfl).1

/-- **An event with flow information does not read back**: the text of an address has none. -/
theorem flowinfo_is_lost :
    SitrepEvent.parseEvent (SitrepEvent.ready (.v6 1 80 1 0) Transports.tcp).serialize ≠
      some (.ready (.v6 1 80 1 0) Transports.tcp) ∧ Transports.tcp.Known := by
  have hknown : Transports.tcp.Known := by decide
  refine ⟨fun hread ↦ ?_, hknown⟩
  rw [SitrepEvent.parseEvent_serialize fun t ht ↦ by cases ht; exact hknown] at hread
  cases hread

end Hole.Plugin
