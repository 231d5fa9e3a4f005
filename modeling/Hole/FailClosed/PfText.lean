import Hole.Arbitration.LastMatch
import Hole.FailClosed.Pf
import Hole.Net.IpText

/-!
# The texts of the macOS covers

The rulesets of `failclosed/macos.rs` as the texts that go to `pfctl -f -`, and pf's reading of
them: words, lines in three sections that must come in order, and the fragment of the rule grammar
the texts use. The translation section of the standing cover is the host's own, carried over from
a snapshot.

`load_buildPfRuleset` and `load_buildLockdownMainRuleset` say what pf holds after loading each
text.
-/

namespace Hole.PfText

open Arbitration Text FailClosed

/-! ### The texts -/

/-- `RESOLVER_PERMIT_PORT`. -/
def resolverPermitPort : Nat := 443

/-- `permit`. -/
def permit (rule : String) : String := rule ++ " no state\n"

/-- `LOOPBACK_SKIP`. -/
def loopbackSkip : String := "set skip on lo0\n"

/-- `LOOPBACK_PASSES`. -/
def loopbackPasses : String :=
  "pass out quick on lo0 all no state\npass in quick on lo0 all no state\n"

/-- `ensure_trailing_nl`. -/
def ensureTrailingNl (s : String) : String :=
  if s.toList = [] ∨ s.toList.getLast? = some '\n' then s else s ++ "\n"

/-- `LOCKDOWN_PF_LABEL`. -/
def lockdownPfLabel : String := "hole-lockdown"

/-- The resolver's permit in `build_pf_ruleset`. -/
def resolverPass (resolverIp : Option IpAddr) : String := (resolverIp.map fun ip ↦
    permit ("pass out quick proto tcp from any to " ++ ip.display ++ " port " ++
      toString resolverPermitPort)).getD ""

/-- `build_pf_ruleset`. -/
def buildPfRuleset (serverIp : IpAddr) (resolverIp : Option IpAddr) : String :=
  "set block-policy drop\n" ++ loopbackSkip ++ loopbackPasses ++ "block out all\n" ++
    permit ("pass out quick from any to " ++ serverIp.display) ++ resolverPass resolverIp

/-- `build_lockdown_main_ruleset`. -/
def buildLockdownMainRuleset (tunName : String) (serverIp : IpAddr) (natSnapshot : String) :
    String :=
  "set block-policy drop\n" ++ loopbackSkip ++ ensureTrailingNl natSnapshot ++ loopbackPasses ++
    permit ("pass out quick proto " ++ "tcp" ++ " from any to " ++ serverIp.display) ++
    permit ("pass out quick on " ++ tunName ++ " all") ++
    "block drop out quick inet6 all\n" ++
    "block drop out quick all label \"" ++ lockdownPfLabel ++ "\"\n"

/-- `build_lockdown_restore_ruleset`. -/
def buildLockdownRestoreText (natSnapshot mainSnapshot : String) : String :=
  "set require-order no\n" ++ "set block-policy drop\n" ++ ensureTrailingNl natSnapshot ++
    mainSnapshot

/-- What a load of a ruleset hands to `pfctl -f -`. -/
def text (r : Ruleset) : String :=
  match r.filter with
  | .host rules => buildLockdownRestoreText r.nat rules
  | .transient serverIp resolverIp => buildPfRuleset serverIp resolverIp
  | .lockdown tunName serverIp => buildLockdownMainRuleset tunName serverIp r.nat

/-! ### Rules -/

/-- The direction of a rule. -/
inductive Direction
  | inward
  | outward
  deriving DecidableEq

/-- A filter rule. An absent field does not constrain. -/
structure FilterRule where
  action : Verdict
  direction : Option Direction
  quick : Bool
  iface : Option String
  inet6 : Option Bool
  proto : Option (BitVec 8)
  /-- `from any to`. -/
  dst : Option IpAddr
  port : Option (BitVec 16)
  noState : Bool
  label : Option String
  deriving DecidableEq

/-- The kind of a translation rule. -/
inductive TranslationKind
  | nat
  | rdr
  | binat
  deriving DecidableEq

/-- A translation rule, or the anchor of some. -/
structure Translation where
  kind : TranslationKind
  anchor : Bool
  /-- `no`: what matches is left alone. -/
  exempt : Bool
  pass : Bool
  /-- What it matches and what it does, as text. -/
  body : List String
  deriving DecidableEq

/-- A line of a ruleset. -/
inductive Line
  | blockPolicy (policy : String)
  | skip (iface : String)
  | translation (t : Translation)
  | filter (r : FilterRule)
  deriving DecidableEq

/-- The section of a line: options, translation, filter. -/
def Line.rank : Line → Nat
  | blockPolicy _ => 0
  | skip _ => 0
  | translation _ => 1
  | filter _ => 2

/-! ### pf's reading -/

/-- `pass` or `block`. -/
def readAction : List String → Option (Verdict × List String)
  | "pass" :: ws => some (.permit, ws)
  | "block" :: "drop" :: ws => some (.block, ws)
  | "block" :: ws => some (.block, ws)
  | _ => none

/-- `in` or `out`. -/
def readDirection : List String → Option Direction × List String
  | "in" :: ws => (some .inward, ws)
  | "out" :: ws => (some .outward, ws)
  | ws => (none, ws)

/-- `quick`. -/
def readQuick : List String → Bool × List String
  | "quick" :: ws => (true, ws)
  | ws => (false, ws)

/-- `on`. -/
def readOn : List String → Option String × List String
  | "on" :: iface :: ws => (some iface, ws)
  | ws => (none, ws)

/-- `inet` or `inet6`. -/
def readFamily : List String → Option Bool × List String
  | "inet6" :: ws => (some true, ws)
  | "inet" :: ws => (some false, ws)
  | ws => (none, ws)

/-- `proto`. -/
def readProto : List String → Option (BitVec 8) × List String
  | "proto" :: "tcp" :: ws => (some 6#8, ws)
  | "proto" :: "udp" :: ws => (some 17#8, ws)
  | ws => (none, ws)

/-- A port number. -/
def readPort (w : String) : Option (BitVec 16) :=
  ((readNat 10 w.toList).filter (· < 65536)).map (BitVec.ofNat 16)

/-- The hosts of a rule: the destination and its port. -/
def readHosts : List String → Option ((Option IpAddr × Option (BitVec 16)) × List String)
  | "all" :: ws => some ((none, none), ws)
  | "from" :: "any" :: "to" :: addr :: "port" :: port :: ws =>
    (IpAddr.read addr).bind fun ip ↦ (readPort port).map fun n ↦ ((some ip, some n), ws)
  | "from" :: "any" :: "to" :: addr :: ws =>
    (IpAddr.read addr).map fun ip ↦ ((some ip, none), ws)
  | _ => none

/-- The options of a rule: `no state`, and the label. -/
def readOptions : List String → Option (Bool × Option String)
  | [] => some (false, none)
  | "no" :: "state" :: ws => (readOptions ws).map fun o ↦ (true, o.2)
  | "label" :: label :: ws => (readOptions ws).map fun o ↦ (o.1, some label)
  | _ => none

/-- A filter rule. -/
def readFilter (ws : List String) : Option FilterRule := (readAction ws).bind fun (action, ws) ↦
    let (direction, ws) := readDirection ws
    let (quick, ws) := readQuick ws
    let (iface, ws) := readOn ws
    let (inet6, ws) := readFamily ws
    let (proto, ws) := readProto ws
    (readHosts ws).bind fun ((dst, port), ws) ↦
      (readOptions ws).map fun (noState, label) ↦
        ⟨action, direction, quick, iface, inet6, proto, dst, port, noState, label⟩

/-- A translation rule after its kind. -/
def readTranslationBody (kind : TranslationKind) : List String → Translation
  | "pass" :: ws => ⟨kind, false, false, true, ws⟩
  | ws => ⟨kind, false, false, false, ws⟩

/-- A line of the translation section. -/
def readTranslation : List String → Option Translation
  | "nat" :: ws => some (readTranslationBody .nat ws)
  | "rdr" :: ws => some (readTranslationBody .rdr ws)
  | "binat" :: ws => some (readTranslationBody .binat ws)
  | "no" :: "nat" :: ws => some ⟨.nat, false, true, false, ws⟩
  | "no" :: "rdr" :: ws => some ⟨.rdr, false, true, false, ws⟩
  | "no" :: "binat" :: ws => some ⟨.binat, false, true, false, ws⟩
  | "nat-anchor" :: ws => some ⟨.nat, true, false, false, ws⟩
  | "rdr-anchor" :: ws => some ⟨.rdr, true, false, false, ws⟩
  | "binat-anchor" :: ws => some ⟨.binat, true, false, false, ws⟩
  | _ => none

/-- A line. -/
def readLine (ws : List String) : Option Line :=
  match ws with
  | ["set", "block-policy", policy] => some (.blockPolicy policy)
  | ["set", "skip", "on", iface] => some (.skip iface)
  | _ =>
    match readTranslation ws with
    | some t => some (.translation t)
    | none => (readFilter ws).map .filter

/-- A loaded ruleset. -/
structure Loaded where
  skip : List String
  translations : List Translation
  filters : List FilterRule

/-- What the lines load. -/
def Loaded.ofLines (ls : List Line) : Loaded where
  skip := ls.filterMap fun | .skip iface => some iface | _ => none
  translations := ls.filterMap fun | .translation t => some t | _ => none
  filters := ls.filterMap fun | .filter r => some r | _ => none

/-- `pfctl -f -`: every line must read, and the sections must come in order. -/
def load (text : String) : Option Loaded := ((lines text.toList).mapM readLine).bind fun ls ↦
    if ls.Pairwise (·.rank ≤ ·.rank) then some (.ofLines ls) else none

/-! ### The texts, read -/

/-- A piece of a text that ends its last line, and the lines it reads as. -/
structure Reads (piece : String) (ls : List Line) : Prop where
  ends : piece.toList = [] ∨ piece.toList.getLast? = some '\n'
  reads : (lines piece.toList).mapM readLine = some ls

theorem Reads.append {piece piece' : String} {ls ls' : List Line} (h : Reads piece ls)
    (h' : Reads piece' ls') : Reads (piece ++ piece') (ls ++ ls') := by
  constructor
  case ends =>
    rw [String.toList_append]
    rcases h'.ends with hnil | hlast
    · simpa [hnil] using h.ends
    · rw [List.getLast?_append, hlast]
      exact .inr rfl
  case reads =>
    rw [String.toList_append, lines_append_of_ends h.ends, List.mapM_append, h.reads, h'.reads]
    rfl

/-- A line put together from words, all but one of them fixed. -/
theorem reads_rule {s t w : String} {l : Line} (a b : List String)
    (hs : s.toList = a.flatMap fun v ↦ v.toList ++ [' '])
    (ht : t.toList = b.flatMap (fun v ↦ ' ' :: v.toList) ++ ['\n'])
    (ha : ∀ v ∈ a, IsWord v) (hw : IsWord w) (hb : ∀ v ∈ b, IsWord v)
    (hl : readLine (a ++ w :: b) = some l) : Reads (s ++ w ++ t) [l] := by
  have htext : (s ++ w ++ t).toList = a.flatMap (fun v ↦ v.toList ++ [' ']) ++ w.toList ++
      b.flatMap (fun v ↦ ' ' :: v.toList) ++ ['\n'] := by
    rw [String.toList_append, String.toList_append, hs, ht, List.append_assoc, List.append_assoc,
      List.append_assoc]
  constructor
  case ends =>
    rw [htext]
    exact .inr (by simp)
  case reads =>
    rw [htext, lines_around ha hw hb]
    simp [hl]

/-- A rule that lets out, statelessly. -/
def passOut (iface : Option String) (proto : Option (BitVec 8)) (dst : Option IpAddr)
    (port : Option (BitVec 16)) : FilterRule :=
  ⟨.permit, some .outward, true, iface, none, proto, dst, port, true, none⟩

/-- The accept side of `LOOPBACK_PASSES`. -/
def loopbackIn : FilterRule :=
  ⟨.permit, some .inward, true, some "lo0", none, none, none, none, true, none⟩

/-- `block out all`. -/
def blockOut : FilterRule :=
  ⟨.block, some .outward, false, none, none, none, none, none, false, none⟩

/-- `block drop out quick`, of one family or of both. -/
def blockOutQuick (inet6 : Option Bool) (label : Option String) : FilterRule :=
  ⟨.block, some .outward, true, none, inet6, none, none, none, false, label⟩

theorem reads_options :
    Reads ("set block-policy drop\n" ++ loopbackSkip) [.blockPolicy "drop", .skip "lo0"] :=
  ⟨.inr (by decide), by decide⟩

theorem reads_loopbackPasses :
    Reads loopbackPasses [.filter (passOut (some "lo0") none none none), .filter loopbackIn] :=
  ⟨.inr (by decide), by decide⟩

theorem reads_blockOut : Reads "block out all\n" [.filter blockOut] := ⟨.inr (by decide), by decide⟩

theorem reads_blockInet6 :
    Reads "block drop out quick inet6 all\n" [.filter (blockOutQuick (some true) none)] :=
  ⟨.inr (by decide), by decide⟩

theorem reads_blockAll : Reads ("block drop out quick all label \"" ++ lockdownPfLabel ++ "\"\n")
      [.filter (blockOutQuick none (some "\"hole-lockdown\""))] :=
  ⟨.inr (by decide), by decide⟩

/-- A line that passes is a filter rule. -/
theorem readLine_pass (ws : List String) :
    readLine ("pass" :: ws) = (readFilter ("pass" :: ws)).map .filter := rfl

/-- A filter rule is read part by part. -/
theorem readFilter_eq {ws ws₁ ws₂ ws₃ ws₄ ws₅ ws₆ ws₇ : List String} {action : Verdict}
    {direction : Option Direction} {quick : Bool} {iface : Option String} {inet6 : Option Bool}
    {proto : Option (BitVec 8)} {dst : Option IpAddr} {port : Option (BitVec 16)} {noState : Bool}
    {label : Option String} (haction : readAction ws = some (action, ws₁))
    (hdirection : readDirection ws₁ = (direction, ws₂)) (hquick : readQuick ws₂ = (quick, ws₃))
    (hon : readOn ws₃ = (iface, ws₄)) (hfamily : readFamily ws₄ = (inet6, ws₅))
    (hproto : readProto ws₅ = (proto, ws₆)) (hhosts : readHosts ws₆ = some ((dst, port), ws₇))
    (hoptions : readOptions ws₇ = some (noState, label)) :
    readFilter ws =
      some ⟨action, direction, quick, iface, inet6, proto, dst, port, noState, label⟩ := by
  simp only [readFilter, haction, hdirection, hquick, hon, hfamily, hproto, hhosts, hoptions,
    Option.bind_some, Option.map_some]

/-- The one address that a rule names, without a port. -/
theorem readHosts_display (ip : IpAddr) :
    readHosts ["from", "any", "to", ip.display, "no", "state"] =
      some ((some ip, none), ["no", "state"]) := by
  show (IpAddr.read ip.display).map (fun ip ↦ ((some ip, none), ["no", "state"])) = _
  rw [IpAddr.read_display]
  rfl

/-- The one address that a rule names, with the port of DNS over HTTPS. -/
theorem readHosts_display_port (ip : IpAddr) :
    readHosts ["from", "any", "to", ip.display, "port", "443", "no", "state"] =
      some ((some ip, some 443#16), ["no", "state"]) := by
  have hport : readPort "443" = some 443#16 := by decide
  show (IpAddr.read ip.display).bind (fun ip ↦ (readPort "443").map fun n ↦
    ((some ip, some n), ["no", "state"])) = _
  rw [IpAddr.read_display, hport]
  rfl

theorem reads_serverPass (serverIp : IpAddr) :
    Reads (permit ("pass out quick from any to " ++ serverIp.display))
      [.filter (passOut none none (some serverIp) none)] := by
  refine reads_rule ["pass", "out", "quick", "from", "any", "to"] ["no", "state"] (by decide)
    (by decide) (by decide) serverIp.isWord_display (by decide) ?_
  have hfilter : readFilter ["pass", "out", "quick", "from", "any", "to", serverIp.display, "no",
      "state"] = some (passOut none none (some serverIp) none) :=
    readFilter_eq rfl rfl rfl rfl rfl rfl (readHosts_display serverIp) rfl
  exact (readLine_pass _).trans (congrArg _ hfilter)

theorem reads_serverTcpPass (serverIp : IpAddr) :
    Reads (permit ("pass out quick proto " ++ "tcp" ++ " from any to " ++ serverIp.display))
      [.filter (passOut none (some 6#8) (some serverIp) none)] := by
  refine reads_rule ["pass", "out", "quick", "proto", "tcp", "from", "any", "to"] ["no", "state"]
    (by decide) (by decide) (by decide) serverIp.isWord_display (by decide) ?_
  have hfilter : readFilter ["pass", "out", "quick", "proto", "tcp", "from", "any", "to",
      serverIp.display, "no", "state"] = some (passOut none (some 6#8) (some serverIp) none) :=
    readFilter_eq rfl rfl rfl rfl rfl rfl (readHosts_display serverIp) rfl
  exact (readLine_pass _).trans (congrArg _ hfilter)

theorem reads_tunPass {tunName : String} (h : IsWord tunName) :
    Reads (permit ("pass out quick on " ++ tunName ++ " all"))
      [.filter (passOut (some tunName) none none none)] := by
  rw [permit, String.append_assoc]
  exact reads_rule ["pass", "out", "quick", "on"] ["all", "no", "state"] (by decide) (by decide)
    (by decide) h (by decide) rfl

/-- The resolver's rule. -/
def resolverRules (resolverIp : Option IpAddr) : List FilterRule :=
  (resolverIp.map fun ip ↦ passOut none (some 6#8) (some ip) (some 443#16)).toList

theorem reads_resolverPass (resolverIp : Option IpAddr) :
    Reads (resolverPass resolverIp) ((resolverRules resolverIp).map .filter) := by
  rcases resolverIp with - | ip
  · exact ⟨.inl rfl, rfl⟩
  · show Reads (permit ("pass out quick proto tcp from any to " ++ ip.display ++ " port " ++
      toString resolverPermitPort)) [.filter (passOut none (some 6#8) (some ip) (some 443#16))]
    rw [permit, String.append_assoc, String.append_assoc]
    refine reads_rule ["pass", "out", "quick", "proto", "tcp", "from", "any", "to"]
      ["port", "443", "no", "state"] (by decide) (by decide) (by decide) ip.isWord_display
      (by decide) ?_
    have hfilter : readFilter ["pass", "out", "quick", "proto", "tcp", "from", "any", "to",
        ip.display, "port", "443", "no", "state"] =
        some (passOut none (some 6#8) (some ip) (some 443#16)) :=
      readFilter_eq rfl rfl rfl rfl rfl rfl (readHosts_display_port ip) rfl
    exact (readLine_pass _).trans (congrArg _ hfilter)

/-- What `pfctl -sn` prints: lines of the translation section. -/
structure NatSnapshot where
  text : String
  /-- Every line is one of the translation section. -/
  readable : ∀ ws ∈ lines text.toList, (readTranslation ws).isSome = true

/-- The rules of a snapshot. -/
def NatSnapshot.translations (s : NatSnapshot) : List Translation :=
  (lines s.text.toList).filterMap readTranslation

theorem readLine_of_translation {ws : List String} {t : Translation}
    (h : readTranslation ws = some t) : readLine ws = some (.translation t) := by
  unfold readLine
  split
  · cases h
  · cases h
  · rw [h]

theorem mapM_readLine {lss : List (List String)}
    (h : ∀ ws ∈ lss, (readTranslation ws).isSome = true) :
    lss.mapM readLine = some ((lss.filterMap readTranslation).map .translation) := by
  induction lss with
  | nil => rfl
  | cons ws lss ih =>
    obtain ⟨t, ht⟩ := Option.isSome_iff_exists.1 (h ws (.head _))
    have hrest := ih fun ws hws ↦ h ws (.tail _ hws)
    simp [readLine_of_translation ht, hrest, ht]

theorem reads_nat (s : NatSnapshot) :
    Reads (ensureTrailingNl s.text) (s.translations.map .translation) := by
  have hreads := mapM_readLine s.readable
  unfold ensureTrailingNl
  split
  · next hends => exact ⟨hends, hreads⟩
  · have hnl : lines (s.text ++ "\n").toList = lines s.text.toList := by
      have happend := lines_append s.text.toList []
      rw [lines_nil, List.append_nil] at happend
      rw [String.toList_append]
      exact happend
    refine ⟨.inr ?_, by rw [hnl]; exact hreads⟩
    rw [String.toList_append, List.getLast?_append]
    rfl

theorem load_of_reads {text : String} {ls : List Line} (h : Reads text ls)
    (hsorted : ls.Pairwise (·.rank ≤ ·.rank)) : load text = some (.ofLines ls) := by
  rw [load, h.reads, Option.bind_some, if_pos hsorted]

/-- The filter rules of a transient cover. -/
def transientRules (serverIp : IpAddr) (resolverIp : Option IpAddr) : List FilterRule :=
  [passOut (some "lo0") none none none, loopbackIn, blockOut,
    passOut none none (some serverIp) none] ++ resolverRules resolverIp

/-- The filter rules of a standing cover. -/
def lockdownRules (tunName : String) (serverIp : IpAddr) : List FilterRule :=
  [passOut (some "lo0") none none none, loopbackIn, passOut none (some 6#8) (some serverIp) none,
    passOut (some tunName) none none none, blockOutQuick (some true) none,
    blockOutQuick none (some "\"hole-lockdown\"")]

/-- A text in three sections. -/
theorem load_sections {text : String} {ts : List Translation} {rs : List FilterRule}
    (h : Reads text ([Line.blockPolicy "drop", .skip "lo0"] ++ ts.map Line.translation ++
      rs.map Line.filter)) : load text = some ⟨["lo0"], ts, rs⟩ := by
  rw [load_of_reads h]
  · simp [Loaded.ofLines, List.filterMap_append, List.filterMap_map]
  · have hpairs {α : Type} (xs : List α) : xs.Pairwise fun _ _ ↦ True :=
      List.pairwise_of_forall fun _ _ ↦ trivial
    simp [List.pairwise_append, List.pairwise_map, Line.rank, hpairs]

/-- **What pf holds after loading a transient cover.** -/
theorem load_buildPfRuleset (serverIp : IpAddr) (resolverIp : Option IpAddr) :
    load (buildPfRuleset serverIp resolverIp) =
      some ⟨["lo0"], [], transientRules serverIp resolverIp⟩ := by
  have hreads := (((reads_options.append reads_loopbackPasses).append reads_blockOut).append
    (reads_serverPass serverIp)).append (reads_resolverPass resolverIp)
  exact load_sections hreads

/-- **What pf holds after loading a standing cover.** -/
theorem load_buildLockdownMainRuleset {tunName : String} (htun : IsWord tunName)
    (serverIp : IpAddr) (s : NatSnapshot) :
    load (buildLockdownMainRuleset tunName serverIp s.text) =
      some ⟨["lo0"], s.translations, lockdownRules tunName serverIp⟩ := by
  have hreads := (((((reads_options.append (reads_nat s)).append reads_loopbackPasses).append
    (reads_serverTcpPass serverIp)).append (reads_tunPass htun)).append reads_blockInet6).append
    reads_blockAll
  rw [← String.append_assoc, ← String.append_assoc] at hreads
  simp only [List.append_assoc] at hreads
  refine load_sections ?_
  rw [List.append_assoc]
  exact hreads

end Hole.PfText
