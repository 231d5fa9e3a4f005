import Hole.Plugin.ExRay
import Hole.Text.Json

/-!
# Sitrep events

The events that a plugin reports on a line each, as garter has them (`garter/src/sitrep.rs`): what
it reads of a line (`parseEvent`), and what it writes itself (`serialize`). An event is an object
whose member `event` says which one it is, in any order of the members; those that the event does
not have are passed over, and one that it has comes once.

A v6 address has a scope and flow information beside its port, and the text of an address leaves
the second out. So an event reads back exactly where there is none (`parseEvent_serialize_iff`).
-/

namespace Hole.Plugin

open Text

/-! ### Addresses -/

/-- `std::net::SocketAddr`, with all that a v6 address has. -/
inductive FullAddr
  | v4 (ip : BitVec 32) (port : BitVec 16)
  | v6 (ip : BitVec 128) (port : BitVec 16) (flowinfo scopeId : BitVec 32)

namespace FullAddr

/-- An address without a scope and without flow information. -/
def ofAddr (addr : SocketAddr) : FullAddr :=
  match addr.ip with
  | .v4 ip => v4 ip addr.port
  | .v6 ip => v6 ip addr.port 0 0

/-- The flow information. -/
def flowinfo : FullAddr → BitVec 32
  | v4 _ _ => 0
  | v6 _ _ flowinfo _ => flowinfo

/-- The address without its flow information. -/
def dropFlowinfo : FullAddr → FullAddr
  | v4 ip port => v4 ip port
  | v6 ip port _ scopeId => v6 ip port 0 scopeId

theorem dropFlowinfo_eq_self_iff {addr : FullAddr} :
    addr.dropFlowinfo = addr ↔ addr.flowinfo = 0 := by
  cases addr with
  | v4 => exact iff_of_true rfl rfl
  | v6 ip port flowinfo scopeId =>
    constructor
    · intro h
      cases h
      rfl
    · rintro (rfl : flowinfo = 0)
      rfl

/-- `Display for SocketAddr`. -/
def display : FullAddr → List Char
  | v4 ip port => SocketAddr.joinHostPort (IpAddr.v4 ip).display.toList (SocketAddr.portText port)
  | v6 ip port _ scopeId =>
    let scope := if scopeId = 0 then [] else '%' :: Nat.toDigits 10 scopeId.toNat
    '[' :: ((IpAddr.v6 ip).display.toList ++ scope ++ ']' :: ':' :: SocketAddr.portText port)

/-- A scope in decimal. -/
def readScope (cs : List Char) : Option (BitVec 32) :=
  ((readNat 10 cs).filter (· < 2 ^ 32)).map (BitVec.ofNat 32)

/-- `SocketAddr::from_str`: the scope of a v6 address is between a percent sign and the bracket. -/
def fromStr (cs : List Char) : Option FullAddr :=
  match splitOnce '%' cs with
  | none => (SocketAddr.fromStr cs).map ofAddr
  | some (before, after) =>
    match splitOnce ']' after with
    | none => none
    | some (scope, after) =>
      match SocketAddr.fromStr (before ++ ']' :: after) with
      | some ⟨.v6 ip, port⟩ => (readScope scope).map (v6 ip port 0)
      | some ⟨.v4 _, _⟩ => none
      | none => none

theorem percent_not_mem_joinHostPort (ip : IpAddr) {port : List Char} (h : '%' ∉ port) :
    '%' ∉ SocketAddr.joinHostPort ip.display.toList port := by
  have hdisplay : '%' ∉ ip.display.toList :=
    IpAddr.not_mem_display (by decide) (by decide) (by decide) ip
  unfold SocketAddr.joinHostPort
  split <;> simp [hdisplay, h]

/-- What Go writes of an address is read, for every spelling of the port. -/
theorem fromStr_joinHostPort (ip : IpAddr) {text : List Char} {port : BitVec 16}
    (hport : SocketAddr.readPort text = some port) (hpercent : '%' ∉ text) :
    fromStr (SocketAddr.joinHostPort ip.display.toList text) = some (ofAddr ⟨ip, port⟩) := by
  rw [fromStr, splitOnce_eq_none (percent_not_mem_joinHostPort ip hpercent),
    SocketAddr.fromStr_joinHostPort ip hport]
  rfl

theorem not_mem_portText {c : Char} (hc : ∀ d < 16, c ≠ Nat.digitChar d) (port : BitVec 16) :
    c ∉ SocketAddr.portText port := not_mem_toDigits (by decide) (by decide) hc

theorem readScope_toDigits (scopeId : BitVec 32) :
    readScope (Nat.toDigits 10 scopeId.toNat) = some scopeId := by
  rw [readScope, readNat_toDigits (by decide) (by decide)]
  simp [scopeId.isLt]

/-- **An address reads back**, less its flow information. -/
theorem fromStr_display (addr : FullAddr) : fromStr addr.display = some addr.dropFlowinfo := by
  have hjoin (ip : IpAddr) (port : BitVec 16) := fromStr_joinHostPort ip
    (SocketAddr.readPort_portText port) (not_mem_portText (by decide) port)
  cases addr with
  | v4 ip port => exact hjoin (.v4 ip) port
  | v6 ip port flowinfo scopeId =>
    have hbracket (port : List Char) : SocketAddr.joinHostPort (IpAddr.v6 ip).display.toList port =
        '[' :: ((IpAddr.v6 ip).display.toList ++ ']' :: ':' :: port) :=
      if_pos (SocketAddr.colon_mem_display_v6 ip)
    by_cases hscope : scopeId = 0
    · have hread := hjoin (.v6 ip) port
      rw [hbracket] at hread
      rw [display, if_pos hscope, List.append_nil, hread, hscope]
      rfl
    · have hpercent : '%' ∉ '[' :: (IpAddr.v6 ip).display.toList := by
        have hdisplay : '%' ∉ (IpAddr.v6 ip).display.toList :=
          IpAddr.not_mem_display (by decide) (by decide) (by decide) (.v6 ip)
        simp [hdisplay]
      have hclose : ']' ∉ Nat.toDigits 10 scopeId.toNat :=
        not_mem_toDigits (by decide) (by decide) (by decide)
      have hread := SocketAddr.fromStr_joinHostPort (.v6 ip) (SocketAddr.readPort_portText port)
      rw [hbracket] at hread
      rw [display, if_neg hscope, List.append_assoc, List.cons_append, ← List.cons_append, fromStr,
        splitOnce_append hpercent]
      dsimp only
      rw [splitOnce_append hclose]
      dsimp only
      rw [List.cons_append, hread]
      rw [readScope_toDigits]
      rfl

end FullAddr

/-! ### Events -/

/-- `Transports`: a byte of flags. -/
abbrev Transports := UInt8

namespace Transports

/-- `Transports::TCP`. -/
def tcp : Transports := 0b01

/-- `Transports::UDP`. -/
def udp : Transports := 0b10

/-- `contains`. -/
def contains (t flag : Transports) : Bool := t &&& flag = flag

/-- No flag is set but these two. -/
def Known (t : Transports) : Prop := t &&& (tcp ||| udp) = t

instance (t : Transports) : Decidable t.Known := inferInstanceAs (Decidable (_ = _))

/-- `transports_serde::serialize`. -/
def names (t : Transports) : List (List Char) :=
  (if t.contains tcp then ["tcp".toList] else []) ++ if t.contains udp then ["udp".toList] else []

/-- The flag of a name; a name that is unknown has none. -/
def ofName (name : List Char) : Transports :=
  if name = "tcp".toList then tcp else if name = "udp".toList then udp else 0

/-- `transports_serde::deserialize`, of the names. -/
def ofNames (names : List (List Char)) : Transports :=
  names.foldl (fun t name ↦ t ||| ofName name) 0

theorem ofNames_names {t : Transports} (h : t.Known) : ofNames t.names = t := by
  have hall : ∀ b : BitVec 8, Known (UInt8.ofBitVec b) →
      ofNames (names (UInt8.ofBitVec b)) = UInt8.ofBitVec b := by decide
  exact hall t.toBitVec h

end Transports

/-- `StartError`, over addresses with or without a scope, and over texts. -/
inductive Sitrep.StartError (α τ : Type)
  | bindConflict (errno : Int32) (addr : α)
  | fatal (detail : τ) (errno : Option Int32)

/-- `PluginReady`. -/
structure Sitrep.PluginReady (α : Type) where
  listen : α
  transports : Transports

/-- `SitrepEvent`. -/
inductive SitrepEvent
  | hello (protocol : List Char)
  | ready (listen : FullAddr) (transports : Transports)
  | bindConflict (errno : Int32) (addr : FullAddr)
  | fatal (detail : List Char) (errno : Option Int32)

namespace SitrepEvent

/-! ### Reading -/

/-- The member of a name, which may be there once: an error, none, or its value. -/
def once (key : String) (members : List (List Char × Json)) : Option (Option Json) :=
  match members.filter (·.1 = key.toList) with
  | [] => some none
  | [m] => some (some m.2)
  | _ :: _ :: _ => none

/-- The member of a name, which is there once. -/
def required (key : String) (members : List (List Char × Json)) : Option Json :=
  (once key members).join

/-- `String`. -/
def textOf : Json → Option (List Char)
  | .string s => some s
  | _ => none

/-- `i32`. -/
def i32Of : Json → Option Int32
  | .number token =>
    ((Json.intOfToken token).filter fun i ↦ -2 ^ 31 ≤ i ∧ i < 2 ^ 31).map Int32.ofInt
  | _ => none

/-- `Option<i32>`. -/
def optionI32Of : Json → Option (Option Int32)
  | .null => some none
  | json => (i32Of json).map some

/-- `SocketAddr`. -/
def addrOf (json : Json) : Option FullAddr := (textOf json).bind FullAddr.fromStr

/-- `transports_serde::deserialize`. -/
def transportsOf : Json → Option Transports
  | .array items => (items.mapM textOf).map Transports.ofNames
  | _ => none

/-- `Deserialize for SitrepEvent`: the tag, and the members of its event. -/
def ofJson : Json → Option SitrepEvent
  | .object members => do
    let tag ← textOf (← required "event" members)
    if tag = "hello".toList then
      return hello (← textOf (← required "protocol" members))
    else if tag = "ready".toList then
      return ready (← addrOf (← required "listen" members))
        (← transportsOf (← required "transports" members))
    else if tag = "bind_conflict".toList then
      return bindConflict (← i32Of (← required "errno" members))
        (← addrOf (← required "addr" members))
    else if tag = "fatal".toList then
      let errno ← match ← once "errno" members with
        | some json => optionI32Of json
        | none => some none
      return fatal (← textOf (← required "detail" members)) errno
    else none
  | _ => none

/-- `parse_event`. `serde_json` reads containers 127 deep. -/
def parseEvent (line : List Char) : Option SitrepEvent :=
  let trimmed := trimSpace line
  if trimmed.head? = some '{' then (Json.parse 127 trimmed).bind ofJson else none

/-! ### Writing -/

/-- The texts of `serde_json`. -/
def quotes : Json.Quotes (List Char) where
  quote s := s.flatMap (Json.writeChar fun _ ↦ false)
  means s := s
  text_quote s rest := by
    have hwrites (c : Char) : Json.Writes (Json.writeChar (fun _ ↦ false) c) c :=
      Json.writes_writeChar (by simp) c
    rw [Json.text_flatMap hwrites, List.map_id']

/-- The members of an event. -/
def record : SitrepEvent → List (List Char × Json.Field (List Char))
  | hello protocol =>
    [("event".toList, .text "hello".toList), ("protocol".toList, .text protocol)]
  | ready listen transports =>
    [("event".toList, .text "ready".toList), ("listen".toList, .text listen.display),
      ("transports".toList, .texts transports.names)]
  | bindConflict errno addr =>
    [("event".toList, .text "bind_conflict".toList), ("errno".toList, .int errno.toInt),
      ("addr".toList, .text addr.display)]
  | fatal detail errno =>
    [("event".toList, .text "fatal".toList), ("detail".toList, .text detail)] ++
      errno.toList.map fun errno ↦ ("errno".toList, .int errno.toInt)

/-- `Serialize for SitrepEvent`. -/
def serialize (e : SitrepEvent) : List Char := Json.render quotes e.record

/-! ### What is read of a record -/

theorem trimSpace_of_ends {c d : Char} (hc : isWhiteSpace c = false) (hd : isWhiteSpace d = false)
    (cs : List Char) : trimSpace (c :: (cs ++ [d])) = c :: (cs ++ [d]) := by
  have hrev : (c :: (cs ++ [d])).reverse = d :: (c :: cs).reverse := by simp
  rw [trimSpace, List.dropWhile_cons_of_neg (by simp [hc]), hrev,
    List.dropWhile_cons_of_neg (by simp [hd]), ← hrev, List.reverse_reverse]

/-- A record is read as the object that it is. -/
theorem parseEvent_render {σ : Type} (q : Json.Quotes σ) {fields : List (List Char × Json.Field σ)}
    (hne : fields ≠ []) (hkeys : ∀ m ∈ fields, ∀ c ∈ m.1, Json.isPlain c = true) :
    parseEvent (Json.render q fields) =
      ofJson (.object (fields.map fun m ↦ (m.1, m.2.json q))) := by
  have htrim : trimSpace (Json.render q fields) = Json.render q fields :=
    trimSpace_of_ends (by decide) (by decide) _
  have hhead : (Json.render q fields).head? = some '{' := rfl
  rw [parseEvent, htrim]
  rw [if_pos hhead, Json.read_render q hne hkeys]
  rfl

section Objects

variable {text : List Char} {addr : FullAddr}

theorem ofJson_hello (protocol : List Char) :
    ofJson (.object [("event".toList, .string "hello".toList),
      ("protocol".toList, .string protocol)]) = some (hello protocol) := rfl

theorem mapM_textOf (names : List (List Char)) :
    (names.map Json.string).mapM textOf = some names := by
  induction names with
  | nil => rfl
  | cons name names ih =>
    rw [List.map_cons, List.mapM_cons, ih]
    rfl

theorem ofJson_ready (haddr : FullAddr.fromStr text = some addr) (names : List (List Char)) :
    ofJson (.object [("event".toList, .string "ready".toList), ("listen".toList, .string text),
      ("transports".toList, .array (names.map .string))]) =
      some (ready addr (Transports.ofNames names)) := by
  have htransports : transportsOf (.array (names.map .string)) =
      some (Transports.ofNames names) := by rw [transportsOf, mapM_textOf]; rfl
  show ((FullAddr.fromStr text).bind fun addr ↦
    (transportsOf (.array (names.map .string))).bind fun transports ↦
      some (ready addr transports)) = _
  rw [haddr, htransports]
  rfl

theorem i32Of_intText {i : Int} (h : -2 ^ 31 ≤ i ∧ i < 2 ^ 31) :
    i32Of (.number (Json.intText i)) = some (Int32.ofInt i) := by
  rw [i32Of, Json.intOfToken_intText, Option.filter_some, if_pos (decide_eq_true h),
    Option.map_some]

theorem i32Of_toInt (errno : Int32) : i32Of (.number (Json.intText errno.toInt)) = some errno := by
  rw [i32Of_intText ⟨errno.le_toInt, errno.toInt_lt⟩, Int32.ofInt_toInt]

theorem ofJson_bindConflict (haddr : FullAddr.fromStr text = some addr) {i : Int} {errno : Int32}
    (herrno : i32Of (.number (Json.intText i)) = some errno) :
    ofJson (.object [("event".toList, .string "bind_conflict".toList),
      ("errno".toList, .number (Json.intText i)), ("addr".toList, .string text)]) =
      some (bindConflict errno addr) := by
  show ((i32Of (.number (Json.intText i))).bind fun errno ↦
    (FullAddr.fromStr text).bind fun addr ↦ some (bindConflict errno addr)) = _
  rw [herrno, haddr]
  rfl

theorem ofJson_fatal (detail : List Char) (errno : Option Int32) :
    ofJson (.object ([("event".toList, .string "fatal".toList),
      ("detail".toList, .string detail)] ++ errno.toList.map fun errno ↦
        ("errno".toList, .number (Json.intText errno.toInt)))) = some (fatal detail errno) := by
  cases errno with
  | none => rfl
  | some errno =>
    show ((optionI32Of (.number (Json.intText errno.toInt))).bind fun errno ↦
      some (fatal detail errno)) = _
    rw [optionI32Of, i32Of_toInt]
    · rfl
    · exact nofun

end Objects

/-! ### The round trip -/

/-- The address of an event. -/
def addr? : SitrepEvent → Option FullAddr
  | hello _ => none
  | ready listen _ => some listen
  | bindConflict _ addr => some addr
  | fatal _ _ => none

/-- The transports of an event. -/
def transports? : SitrepEvent → Option Transports
  | hello _ => none
  | ready _ transports => some transports
  | bindConflict _ _ => none
  | fatal _ _ => none

/-- The event without flow information. -/
def dropFlowinfo : SitrepEvent → SitrepEvent
  | hello protocol => hello protocol
  | ready listen transports => ready listen.dropFlowinfo transports
  | bindConflict errno addr => bindConflict errno addr.dropFlowinfo
  | fatal detail errno => fatal detail errno

theorem dropFlowinfo_eq_self_iff {e : SitrepEvent} :
    e.dropFlowinfo = e ↔ ∀ addr ∈ e.addr?, addr.flowinfo = 0 := by
  cases e with
  | hello => exact iff_of_true rfl nofun
  | ready listen transports =>
    simp [dropFlowinfo, addr?, FullAddr.dropFlowinfo_eq_self_iff]
  | bindConflict errno addr =>
    simp [dropFlowinfo, addr?, FullAddr.dropFlowinfo_eq_self_iff]
  | fatal => exact iff_of_true rfl nofun

theorem record_ne_nil (e : SitrepEvent) : e.record ≠ [] := by
  cases e <;> exact List.cons_ne_nil _ _

theorem isPlain_record (e : SitrepEvent) : ∀ m ∈ e.record, ∀ c ∈ m.1, Json.isPlain c = true := by
  have hall : e.record.all (fun m ↦ m.1.all Json.isPlain) = true := by
    cases e with
    | hello => rfl
    | ready => rfl
    | bindConflict => rfl
    | fatal detail errno => cases errno <;> rfl
  exact fun m hm ↦ List.all_eq_true.1 (List.all_eq_true.1 hall m hm)

/-- **What garter writes of an event is read back**, less its flow information. -/
theorem parseEvent_serialize {e : SitrepEvent} (h : ∀ t ∈ e.transports?, t.Known) :
    parseEvent e.serialize = some e.dropFlowinfo := by
  rw [serialize, parseEvent_render quotes e.record_ne_nil e.isPlain_record]
  cases e with
  | hello protocol => exact ofJson_hello protocol
  | ready listen transports =>
    have hread := ofJson_ready listen.fromStr_display transports.names
    rw [Transports.ofNames_names (h _ rfl)] at hread
    exact hread
  | bindConflict errno addr => exact ofJson_bindConflict addr.fromStr_display (i32Of_toInt errno)
  | fatal detail errno =>
    have hread := ofJson_fatal detail errno
    rw [record, List.map_append, List.map_map]
    exact hread

/-- What garter writes is on one line. -/
theorem newline_not_mem_serialize (e : SitrepEvent) : '\n' ∉ e.serialize := by
  refine Json.newline_not_mem_render quotes (fun s hmem ↦ ?_) e.isPlain_record
  obtain ⟨c, -, hc⟩ := List.mem_flatMap.1 hmem
  exact Json.newline_not_mem_writeChar _ c hc

end SitrepEvent

end Hole.Plugin
