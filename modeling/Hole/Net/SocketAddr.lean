import Hole.Net.IpText

/-!
# Socket addresses

`std::net::SocketAddr`, less the scope of a v6 address, and the texts it is exchanged as: Go writes
`JoinHostPort` of the parts, and Rust reads `from_str`. A port is read as a number, so it may be
written with leading zeros (`fromStr_joinHostPort`).
-/

namespace Hole

open Text

/-- `std::net::SocketAddr`. -/
structure SocketAddr where
  ip : IpAddr
  port : BitVec 16
  deriving DecidableEq

namespace SocketAddr

/-- `net.JoinHostPort`: a host with a colon is bracketed. -/
def joinHostPort (host port : List Char) : List Char :=
  if ':' ∈ host then '[' :: (host ++ ']' :: ':' :: port) else host ++ ':' :: port

/-- A port in decimal. -/
def readPort (cs : List Char) : Option (BitVec 16) :=
  ((readNat 10 cs).filter (· < 65536)).map (BitVec.ofNat 16)

/-- A host of one family, and a port. -/
def ofParts (v4 : Bool) (host port : List Char) : Option SocketAddr :=
  ((IpAddr.fromStr host).filter (·.isIpv4 = v4)).bind fun ip ↦ (readPort port).map (⟨ip, ·⟩)

/-- `SocketAddr::from_str`. -/
def fromStr : List Char → Option SocketAddr
  | '[' :: rest =>
    match splitOnce ']' rest with
    | some (host, ':' :: port) => ofParts false host port
    | _ => none
  | cs =>
    match splitOnce ':' cs with
    | some (host, port) => ofParts true host port
    | none => none

/-- The decimal text of a port. -/
def portText (port : BitVec 16) : List Char := Nat.toDigits 10 port.toNat

theorem readPort_portText (port : BitVec 16) : readPort (portText port) = some port := by
  have hlt : port.toNat < 65536 := port.isLt
  rw [readPort, portText, readNat_toDigits (by decide) (by decide)]
  simp [hlt]

theorem colon_mem_display_v6 (b : BitVec 128) : ':' ∈ (IpAddr.v6 b).display.toList := by
  by_contra hcolon
  have hread := IpAddr.read_display (.v6 b)
  rw [IpAddr.read, if_neg hcolon] at hread
  obtain ⟨_, -, hv4⟩ := Option.map_eq_some_iff.1 hread
  exact IpAddr.noConfusion hv4

theorem ofParts_display (ip : IpAddr) {v4 : Bool} {text : List Char} {port : BitVec 16}
    (hip : ip.isIpv4 = v4) (hport : readPort text = some port) :
    ofParts v4 ip.display.toList text = some ⟨ip, port⟩ := by
  rw [ofParts, IpAddr.fromStr_display, hport, Option.filter_some, decide_eq_true hip]
  rfl

theorem head?_append_ne {c sep : Char} {before : List Char} (h : c ∉ before) (hne : sep ≠ c)
    (after : List Char) : (before ++ sep :: after).head? ≠ some c := by
  cases before with
  | nil => simpa using hne
  | cons d before =>
    intro hhead
    exact h (Option.some.inj hhead ▸ (.head _))

/-- A host without a colon is a v4 address or none. -/
theorem fromStr_plain {host : List Char} (hcolon : ':' ∉ host) (hopen : '[' ∉ host)
    (port : List Char) : fromStr (joinHostPort host port) = ofParts true host port := by
  have hhead := head?_append_ne hopen (by decide : ':' ≠ '[') port
  have hsplit := splitOnce_append hcolon port
  rw [joinHostPort, if_neg hcolon]
  unfold fromStr
  split
  · rename_i heq
    exact absurd (congrArg List.head? heq) hhead
  · rw [hsplit]

/-- A host with a colon is a v6 address or none. -/
theorem fromStr_bracketed {host : List Char} (hcolon : ':' ∈ host) (hclose : ']' ∉ host)
    (port : List Char) : fromStr (joinHostPort host port) = ofParts false host port := by
  rw [joinHostPort, if_pos hcolon, fromStr, splitOnce_append hclose]
  rfl

/-- **What Go writes of an address is read back by Rust**, for every spelling of the port. -/
theorem fromStr_joinHostPort (ip : IpAddr) {text : List Char} {port : BitVec 16}
    (hport : readPort text = some port) :
    fromStr (joinHostPort ip.display.toList text) = some ⟨ip, port⟩ := by
  have hbracket {c : Char} (hc : c ∈ ['[', ']']) : c ∉ ip.display.toList := by
    intro hmem
    have hall : ∀ c ∈ ['[', ']'], c ∉ IpAddr.displayChars := Text.forall_of_all (by decide)
    exact hall c hc (IpAddr.mem_displayChars hmem)
  have hparts := ofParts_display ip rfl hport
  cases ip with
  | v4 b =>
    exact (fromStr_plain (IpAddr.colon_not_mem_displayV4 b) (hbracket (by simp)) text).trans hparts
  | v6 b =>
    exact (fromStr_bracketed (colon_mem_display_v6 b) (hbracket (by simp)) text).trans hparts

end SocketAddr

end Hole
