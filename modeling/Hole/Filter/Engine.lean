import Hole.Filter.Families
import Hole.Filter.HttpRequest
import Hole.Filter.Last
import Hole.Filter.Sniffer
import Mathlib.Data.List.Find

/-!
# The filter engine

`crates/bridge/src/filter/rules.rs` and `engine.rs`: the rules of the user are compiled once, those
that do not compile are put aside, and a decision is that of the last rule that matches
(`decide_last`). The three surfaces that decide are the engine on a connection, the Test box
(`decideTest`), and the dispatch of `hole_router.rs`, which looks for a name only if a rule is about
names (`surfaces_agree`), and only in the first bytes that come in time (`peekFlow`).
-/

namespace Hole.Filter

open Text Gui Last

/-- `CompiledRule`. -/
structure CompiledRule (c : Crates) where
  matcher : Matcher c
  action : FilterAction
  originalIndex : Nat

/-- `InvalidFilter`. -/
structure InvalidFilter where
  index : UInt32
  error : String

/-- `RuleSet`. -/
structure RuleSet (c : Crates) where
  rules : List (CompiledRule c)
  hasDomainRules : Bool
  dropped : List InvalidFilter

/-- `Decision`. -/
structure Decision where
  action : FilterAction
  ruleIndex : Option Nat

/-- `TestInput`. -/
inductive TestInput
  | domain (name : List Char)
  | ip (addr : IpAddr)

/-- The index of a rule on the wire. -/
def clampIndex (i : Nat) : UInt32 := if i < 2 ^ 32 then UInt32.ofNat i else 0xffffffff

section Compile

variable (c : Crates)

/-- The loop of `RuleSet::from_user_rules`: what is compiled of rules whose first has the index `i`,
and what is dropped of them. -/
def compileRules : Nat → List FilterRule → List (CompiledRule c) × List InvalidFilter
  | _, [] => ([], [])
  | i, rule :: rules =>
    let (compiled, dropped) := compileRules (i + 1) rules
    match Matcher.compile c rule.address rule.matching with
    | .ok matcher => (⟨matcher, rule.action, i⟩ :: compiled, dropped)
    | .error err => (compiled, ⟨clampIndex i, err⟩ :: dropped)

/-- `RuleSet::from_user_rules`. -/
def fromUserRules (rules : List FilterRule) : RuleSet c where
  rules := (compileRules c 0 rules).1
  hasDomainRules := (compileRules c 0 rules).1.any fun r ↦ r.matcher.isDomain
  dropped := (compileRules c 0 rules).2

variable {c}

/-- `first_match`. -/
def firstMatch (rules : RuleSet c) (pred : CompiledRule c → Bool) : Decision :=
  match rules.rules.reverse.find? pred with
  | some rule => ⟨rule.action, some rule.originalIndex⟩
  | none => ⟨.proxy, none⟩

/-- `decide`. -/
def decide (rules : RuleSet c) (conn : ConnInfo) : Decision :=
  firstMatch rules fun rule ↦ rule.matcher.matches conn

/-- `decide_test`. -/
def decideTest (rules : RuleSet c) : TestInput → Decision
  | .ip addr =>
    let conn : ConnInfo := { dst := ⟨addr, 0⟩, domain := none, proto := .tcp }
    firstMatch rules fun rule ↦ rule.matcher.matches conn
  | .domain name =>
    -- The destination is a placeholder.
    let conn : ConnInfo := { dst := ⟨.v4 0, 0⟩, domain := some name, proto := .tcp }
    firstMatch rules fun rule ↦ rule.matcher.isDomain && rule.matcher.matches conn

/-- `PEEK_BUF_SIZE`. -/
def peekBufSize : Nat := 2048

/-- `TcpFlow::peek`, from what is buffered on: the chunks are those that come in before the deadline
and the end of the stream. -/
def peekFlow (n : Nat) : Bytes → List Bytes → Bytes
  | readBuf, [] => readBuf.take n
  | readBuf, data :: chunks =>
    if readBuf.length < n then peekFlow n (readBuf ++ data) chunks else readBuf.take n

/-- What `dispatch_tcp` decides of a flow, by the chunks that come in while it peeks; a peek fails
if the engine is shutting down. -/
def dispatchTcp (tls : TlsParser) (rules : RuleSet c) (dst : SocketAddr)
    (chunks : Option (List Bytes)) : Decision :=
  let domain := if rules.hasDomainRules then
      match chunks.map (peekFlow peekBufSize []) with
      | some bytes => if bytes = [] then none else peek tls bytes
      | none => none
    else none
  decide rules { dst := dst, domain := domain, proto := .tcp }

end Compile

/-! ### The rules that compile -/

/-- A rule compiles to a matcher that `p` holds of. -/
def Hits (c : Crates) (p : Matcher c → Bool) (rule : FilterRule) : Prop :=
  ∃ m, Matcher.compile c rule.address rule.matching = .ok m ∧ p m = true

/-- A rule compiles. -/
def Compiles (c : Crates) (rule : FilterRule) : Prop :=
  ∃ m, Matcher.compile c rule.address rule.matching = .ok m

theorem compiles_of_hits {c : Crates} {p : Matcher c → Bool} (rule : FilterRule)
    (h : Hits c p rule) : Compiles c rule := by
  obtain ⟨m, hm, -⟩ := h
  exact ⟨m, hm⟩

variable {c : Crates}

theorem compileRules_append (i : Nat) (rules rules' : List FilterRule) :
    compileRules c i (rules ++ rules') =
      ((compileRules c i rules).1 ++ (compileRules c (i + rules.length) rules').1,
        (compileRules c i rules).2 ++ (compileRules c (i + rules.length) rules').2) := by
  induction rules generalizing i with
  | nil => rfl
  | cons rule rules ih =>
    have hlen : i + 1 + rules.length = i + (rule :: rules).length := by
      rw [List.length_cons, Nat.add_assoc, Nat.add_comm 1]
    rw [List.cons_append, compileRules, ih, compileRules, hlen]
    cases Matcher.compile c rule.address rule.matching <;> rfl

variable {rules : List FilterRule}

/-- A rule at the end decides, if it counts. -/
theorem firstMatch_concat_of_hits {p : Matcher c → Bool} {rule : FilterRule} (h : Hits c p rule) :
    firstMatch (fromUserRules c (rules ++ [rule])) (fun r ↦ p r.matcher) =
      ⟨rule.action, some rules.length⟩ := by
  obtain ⟨m, hm, hp⟩ := h
  simp only [firstMatch, fromUserRules, compileRules_append]
  simp [compileRules, hm, hp]

theorem firstMatch_concat_of_not_hits {p : Matcher c → Bool} {rule : FilterRule}
    (h : ¬Hits c p rule) :
    firstMatch (fromUserRules c (rules ++ [rule])) (fun r ↦ p r.matcher) =
      firstMatch (fromUserRules c rules) fun r ↦ p r.matcher := by
  simp only [firstMatch, fromUserRules, compileRules_append]
  cases hm : Matcher.compile c rule.address rule.matching with
  | error err => simp [compileRules, hm]
  | ok m =>
    have hp : ¬p m = true := fun hp ↦ h ⟨m, hm, hp⟩
    simp [compileRules, hm, hp]

/-- The decision is that of the last rule that counts. -/
theorem firstMatch_eq (p : Matcher c → Bool) (rules : List FilterRule) :
    (∃ i rule, IsLast (Hits c p) rules i rule ∧
      firstMatch (fromUserRules c rules) (fun r ↦ p r.matcher) = ⟨rule.action, some i⟩) ∨
    (∀ rule ∈ rules, ¬Hits c p rule) ∧
      firstMatch (fromUserRules c rules) (fun r ↦ p r.matcher) = ⟨.proxy, none⟩ := by
  induction rules using List.reverseRecOn with
  | nil => exact .inr ⟨by simp, rfl⟩
  | append_singleton rules rule ih =>
    by_cases hrule : Hits c p rule
    · exact .inl ⟨rules.length, rule, isLast_concat hrule, firstMatch_concat_of_hits hrule⟩
    rw [firstMatch_concat_of_not_hits hrule]
    rcases ih with ⟨i, last, hlast, hdecision⟩ | ⟨hnone, hdecision⟩
    · exact .inl ⟨i, last, hlast.concat hrule, hdecision⟩
    · refine .inr ⟨fun other hother ↦ ?_, hdecision⟩
      rcases List.mem_append.1 hother with hother | hother
      · exact hnone other hother
      · rwa [List.mem_singleton.1 hother]

/-- A decision with the index at another place. -/
def Decision.reindex (f : Nat → Nat) (d : Decision) : Decision :=
  { d with ruleIndex := d.ruleIndex.map f }

/-- Rules that do not compile leave the decision as it is, but for the index. -/
theorem firstMatch_padded (p : Matcher c → Bool) {f : Nat → Nat} {rules rules' : List FilterRule}
    (h : Padded (Compiles c) f rules rules') :
    firstMatch (fromUserRules c rules') (fun r ↦ p r.matcher) =
      (firstMatch (fromUserRules c rules) fun r ↦ p r.matcher).reindex f := by
  rcases firstMatch_eq p rules with ⟨i, rule, hlast, hdecision⟩ | ⟨hnone, hdecision⟩
  · rcases firstMatch_eq p rules' with ⟨i', rule', hlast', hdecision'⟩ | ⟨hnone', -⟩
    · obtain ⟨rfl, rfl⟩ := (hlast.padded h compiles_of_hits).unique hlast'
      rw [hdecision', hdecision]
      rfl
    · exact absurd (hlast.padded h compiles_of_hits) (not_isLast hnone' _ _)
  · rcases firstMatch_eq p rules' with ⟨i', rule', hlast', -⟩ | ⟨-, hdecision'⟩
    · exact absurd hlast' (not_isLast (h.forall_not compiles_of_hits hnone) _ _)
    · rw [hdecision', hdecision]
      rfl

theorem toNat_clampIndex {i : Nat} (h : i < 2 ^ 32) : (clampIndex i).toNat = i := by
  rw [clampIndex, if_pos h, UInt32.toNat_ofNat', Nat.mod_eq_of_lt h]

/-- Each rule has its index once, compiled or dropped. -/
theorem compileRules_perm (rules : List FilterRule) (i : Nat) (h : i + rules.length ≤ 2 ^ 32) :
    ((compileRules c i rules).1.map CompiledRule.originalIndex ++
      (compileRules c i rules).2.map fun d ↦ d.index.toNat).Perm (List.range' i rules.length) := by
  induction rules generalizing i with
  | nil => exact .refl _
  | cons rule rules ih =>
    rw [List.length_cons] at h
    have hrest := ih (i + 1) (by omega)
    rw [compileRules, List.length_cons, List.range'_succ]
    cases Matcher.compile c rule.address rule.matching with
    | ok m => exact hrest.cons i
    | error err =>
      rw [List.map_cons, toNat_clampIndex (by omega)]
      exact List.perm_middle.trans (hrest.cons i)

/-- The rule that has an index. -/
def RuleAt (rules : List FilterRule) (i k : Nat) (P : FilterRule → Prop) : Prop :=
  ∃ j rule, k = i + j ∧ rules[j]? = some rule ∧ P rule

theorem RuleAt.cons {i k : Nat} {P : FilterRule → Prop} (h : RuleAt rules (i + 1) k P)
    (rule : FilterRule) : RuleAt (rule :: rules) i k P := by
  obtain ⟨j, found, hk, hget, hfound⟩ := h
  exact ⟨j + 1, found, by omega, hget, hfound⟩

/-- What is compiled is of the rule with its index, and so is what is dropped. -/
theorem compileRules_at (rules : List FilterRule) (i : Nat) (h : i + rules.length ≤ 2 ^ 32) :
    (∀ r ∈ (compileRules c i rules).1, RuleAt rules i r.originalIndex fun rule ↦
      Matcher.compile c rule.address rule.matching = .ok r.matcher ∧ rule.action = r.action) ∧
    ∀ d ∈ (compileRules c i rules).2, RuleAt rules i d.index.toNat fun rule ↦
      Matcher.compile c rule.address rule.matching = .error d.error := by
  induction rules generalizing i with
  | nil => exact ⟨by simp [compileRules], by simp [compileRules]⟩
  | cons rule rules ih =>
    rw [List.length_cons] at h
    obtain ⟨hcompiled, hdropped⟩ := ih (i + 1) (by omega)
    rw [compileRules]
    cases hm : Matcher.compile c rule.address rule.matching with
    | ok m =>
      refine ⟨fun r hr ↦ ?_, fun d hd ↦ (hdropped d hd).cons rule⟩
      rcases List.mem_cons.1 hr with rfl | hr
      · exact ⟨0, rule, rfl, rfl, hm, rfl⟩
      · exact (hcompiled r hr).cons rule
    | error err =>
      refine ⟨fun r hr ↦ (hcompiled r hr).cons rule, fun d hd ↦ ?_⟩
      rcases List.mem_cons.1 hd with rfl | hd
      · exact ⟨0, rule, toNat_clampIndex (by omega), rfl, hm⟩
      · exact (hdropped d hd).cons rule

/-- A decision is that of the last rule that compiles and matches, with its index; rules that do not
compile change no more than the index; and each rule is compiled or dropped, with its index. -/
theorem decide_last (c : Crates) (rules : List FilterRule) :
    (∀ conn : ConnInfo,
      (∃ i rule, IsLast (Hits c fun m ↦ m.matches conn) rules i rule ∧
        decide (fromUserRules c rules) conn = ⟨rule.action, some i⟩) ∨
      (∀ rule ∈ rules, ¬Hits c (fun m ↦ m.matches conn) rule) ∧
        decide (fromUserRules c rules) conn = ⟨.proxy, none⟩) ∧
    (∀ (rules' : List FilterRule) (f : Nat → Nat), Padded (Compiles c) f rules rules' →
      ∀ conn : ConnInfo, decide (fromUserRules c rules') conn =
        (decide (fromUserRules c rules) conn).reindex f) ∧
    (rules.length < 2 ^ 32 →
      ((fromUserRules c rules).rules.map CompiledRule.originalIndex ++
        (fromUserRules c rules).dropped.map fun d ↦ d.index.toNat).Perm
          (List.range rules.length) ∧
      (∀ r ∈ (fromUserRules c rules).rules, ∃ rule, rules[r.originalIndex]? = some rule ∧
        Matcher.compile c rule.address rule.matching = .ok r.matcher ∧ rule.action = r.action) ∧
      ∀ d ∈ (fromUserRules c rules).dropped, ∃ rule, rules[d.index.toNat]? = some rule ∧
        Matcher.compile c rule.address rule.matching = .error d.error) := by
  refine ⟨fun conn ↦ firstMatch_eq _ rules, fun rules' f h conn ↦ firstMatch_padded _ h,
    fun hlen ↦ ?_⟩
  have hle : 0 + rules.length ≤ 2 ^ 32 := by omega
  have hat {k : Nat} {P : FilterRule → Prop} (h : RuleAt rules 0 k P) :
      ∃ rule, rules[k]? = some rule ∧ P rule := by
    obtain ⟨j, rule, rfl, hget, hrule⟩ := h
    exact ⟨rule, by rwa [Nat.zero_add], hrule⟩
  obtain ⟨hcompiled, hdropped⟩ := compileRules_at (c := c) rules 0 hle
  refine ⟨?_, fun r hr ↦ hat (hcompiled r hr), fun d hd ↦ hat (hdropped d hd)⟩
  rw [List.range_eq_range']
  exact compileRules_perm rules 0 hle

/-- A rule that blocks `10.0.0.0/8`. -/
def blockTen : FilterRule := ⟨String.ofList (netText (.v4 ten) 8), .subnet, .block⟩

/-- A rule without an address. -/
def emptyRule : FilterRule := ⟨"", .exactly, .bypass⟩

theorem emptyRule_not_compiles : ¬Compiles c emptyRule := by
  rintro ⟨m, hm⟩
  cases hm

/-- Where a rule is, with one before it and then one behind it. -/
def besides : Nat → Nat := (fun i ↦ if i < 2 then i else i + 1) ∘ fun i ↦ if i < 0 then i else i + 1

theorem padded_sample :
    Padded (Compiles c) besides [blockTen] [emptyRule, blockTen, emptyRule] := by
  have hnot : ∀ rule ∈ [emptyRule], ¬Compiles c rule := by
    intro rule hrule
    rw [List.mem_singleton.1 hrule]
    exact emptyRule_not_compiles
  exact (padded_insert [] [blockTen] hnot).trans (padded_insert [emptyRule, blockTen] [] hnot)

theorem decide_last_sample :
    decide (fromUserRules ipnet [emptyRule, blockTen, emptyRule]) toTen =
      (decide (fromUserRules ipnet [blockTen]) toTen).reindex besides ∧
    ((fromUserRules ipnet [emptyRule, blockTen]).rules.map CompiledRule.originalIndex ++
      (fromUserRules ipnet [emptyRule, blockTen]).dropped.map fun d ↦ d.index.toNat).Perm
        (List.range [emptyRule, blockTen].length) :=
  ⟨(decide_last ipnet _).2.1 _ _ padded_sample toTen,
    ((decide_last ipnet [emptyRule, blockTen]).2.2 (by decide)).1⟩

/-! ### The surfaces that decide -/

theorem firstMatch_congr {rules : RuleSet c} {p q : CompiledRule c → Bool}
    (h : ∀ r ∈ rules.rules, p r = q r) : firstMatch rules p = firstMatch rules q := by
  rw [firstMatch, firstMatch, List.find?_congr fun r hr ↦ h r (List.mem_reverse.1 hr)]

/-- Where no rule is about names, a name changes nothing. -/
theorem decide_of_no_domain_rules {rules : RuleSet c}
    (h : ∀ r ∈ rules.rules, r.matcher.isDomain = false) {conn conn' : ConnInfo}
    (hip : conn.dst.ip = conn'.dst.ip) : decide rules conn = decide rules conn' :=
  firstMatch_congr fun r hr ↦ matches_of_not_isDomain (h r hr) hip

theorem mem_fromUserRules {i : Nat} {r : CompiledRule c} (hr : r ∈ (compileRules c i rules).1) :
    ∃ rule ∈ rules, Matcher.compile c rule.address rule.matching = .ok r.matcher := by
  induction rules generalizing i with
  | nil => simp [compileRules] at hr
  | cons rule rules ih =>
    rw [compileRules] at hr
    dsimp only at hr
    cases hm : Matcher.compile c rule.address rule.matching with
    | ok m =>
      rw [hm] at hr
      rcases List.mem_cons.1 hr with rfl | hr
      · exact ⟨rule, .head _, hm⟩
      · obtain ⟨found, hfound, hcompile⟩ := ih hr
        exact ⟨found, .tail _ hfound, hcompile⟩
    | error err =>
      rw [hm] at hr
      obtain ⟨found, hfound, hcompile⟩ := ih hr
      exact ⟨found, .tail _ hfound, hcompile⟩

/-- A peek returns the first bytes that come in, however they are cut up. -/
theorem peekFlow_eq (n : Nat) (readBuf : Bytes) (chunks : List Bytes) :
    peekFlow n readBuf chunks = (readBuf ++ chunks.flatten).take n := by
  induction chunks generalizing readBuf with
  | nil => simp [peekFlow]
  | cons data chunks ih =>
    rw [peekFlow]
    split
    · rw [ih, List.flatten_cons, List.append_assoc]
    · next hfull => rw [List.take_append_of_le_length (Nat.not_lt.1 hfull)]

/-- The dispatch decides as the engine does with the name that is recovered of the first 2048 bytes
that come in, and the Test box as the engine does on a connection with what was typed and nothing
else that counts. -/
theorem surfaces_agree (c : Crates) (tls : TlsParser) (htls : tls.NeedsBytes)
    (rules : List FilterRule) :
    (∀ (dst : SocketAddr) (chunks : Option (List Bytes)),
      dispatchTcp tls (fromUserRules c rules) dst chunks =
        decide (fromUserRules c rules)
          ⟨dst, chunks.bind fun chunks ↦ peek tls (chunks.flatten.take peekBufSize), .tcp⟩) ∧
    (∀ conn : ConnInfo, conn.domain = none →
      decideTest (fromUserRules c rules) (.ip conn.dst.ip) =
        decide (fromUserRules c rules) conn) ∧
    ∀ (name : List Char) (conn : ConnInfo), conn.domain = some name →
      (∀ rule ∈ rules, ∀ m, Matcher.compile c rule.address rule.matching = .ok m →
        m.isDomain = false → m.matches conn = false) →
      decideTest (fromUserRules c rules) (.domain name) = decide (fromUserRules c rules) conn := by
  refine ⟨fun dst chunks ↦ ?_, fun conn hnone ↦ ?_, fun name conn hname hother ↦ ?_⟩
  · unfold dispatchTcp
    by_cases hgate : (fromUserRules c rules).hasDomainRules = true
    · rw [if_pos hgate]
      cases chunks with
      | none => rfl
      | some chunks =>
        have hpeeked : peekFlow peekBufSize [] chunks = chunks.flatten.take peekBufSize :=
          peekFlow_eq _ _ _
        dsimp only [Option.map_some, Option.bind_some]
        rw [hpeeked]
        split
        · next hnil => rw [hnil, peek_nil htls]
        · rfl
    · refine decide_of_no_domain_rules (fun r hr ↦ ?_) rfl
      by_contra hdomain
      exact hgate (List.any_eq_true.2 ⟨r, hr, by simpa using hdomain⟩)
  · -- The port and the protocol are read by no matcher.
    refine firstMatch_congr fun r _ ↦ ?_
    cases hdomain : r.matcher.isDomain with
    | true => rw [matches_of_no_domain hdomain rfl, matches_of_no_domain hdomain hnone]
    | false => exact matches_of_not_isDomain hdomain rfl
  · refine firstMatch_congr fun r hr ↦ ?_
    cases hdomain : r.matcher.isDomain with
    | true =>
      rw [Bool.true_and]
      exact matches_of_isDomain hdomain hname.symm
    | false =>
      obtain ⟨rule, hrule, hcompile⟩ := mem_fromUserRules hr
      rw [Bool.false_and, hother rule hrule r.matcher hcompile hdomain]

/-- A parser that finds no TLS in a request of HTTP. -/
def noTls : TlsParser where
  parsePlaintext _ := none
  parseExtensions _ := none

/-- A connection to `11.0.0.1` with a name. -/
def toEleven : ConnInfo where
  dst := ⟨.v4 0x0b000001, 443⟩
  domain := some "example.com".toList
  proto := .tcp

theorem surfaces_agree_sample : noTls.NeedsBytes ∧
    dispatchTcp noTls (fromUserRules ipnet [blockTen]) toTen.dst
        (some [request "example", utf8 ".com\r\n\r\n".toList]) =
      decide (fromUserRules ipnet [blockTen])
        ⟨toTen.dst, peek noTls (request "example.com\r\n\r\n"), .tcp⟩ ∧
    decideTest (fromUserRules ipnet [blockTen]) (.ip toTen.dst.ip) =
      decide (fromUserRules ipnet [blockTen]) toTen ∧
    decideTest (fromUserRules ipnet [blockTen]) (.domain "example.com".toList) =
      decide (fromUserRules ipnet [blockTen]) toEleven := by
  have hall := surfaces_agree ipnet noTls rfl [blockTen]
  refine ⟨rfl, hall.1 _ _, hall.2.1 toTen rfl, hall.2.2 _ toEleven rfl fun rule hrule m hm _ ↦ ?_⟩
  obtain rfl := List.mem_singleton.1 hrule
  obtain ⟨m', hm', hmatches⟩ :=
    subnetRule_matches ipnet_published (show 8 ≤ (IpAddr.v4 ten).width by decide) toEleven
  obtain rfl := Except.ok.inj (hm.symm.trans hm')
  rw [← Bool.not_eq_true, hmatches]
  decide

/-! ### Behind what is peeked -/

/-- A rule about a name. -/
def blockExample : FilterRule := ⟨"example.com", .exactly, .block⟩

theorem exampleHost_unbroken :
    13 ∉ utf8 "example.com".toList ∧ 10 ∉ utf8 "example.com".toList := by decide

theorem farTarget_unbroken :
    13 ∉ List.replicate peekBufSize (97 : UInt8) ∧ 10 ∉ List.replicate peekBufSize (97 : UInt8) :=
  ⟨fun h ↦ absurd (List.eq_of_mem_replicate h) (by decide),
    fun h ↦ absurd (List.eq_of_mem_replicate h) (by decide)⟩

/-- A request whose target takes up all that is peeked. -/
def farHost : Request :=
  { lone (utf8 "example.com".toList) exampleHost_unbroken with
    target := List.replicate peekBufSize 97
    target_unbroken := farTarget_unbroken }

/-- Bytes of one line without a colon have no host. -/
theorem extractHost_of_not_mem {buf : Bytes} (hcolon : 58 ∉ buf) (hbreak : 10 ∉ buf) :
    extractHost buf = none := by
  have hpart (n m : Nat) : scanHost ((buf.take n).take m) = none := by
    have hsub : ∀ b ∈ (buf.take n).take m, b ∈ buf := fun b hb ↦
      List.mem_of_mem_take (List.mem_of_mem_take hb)
    rw [scanHost_of_none fun j hpre ↦ hbreak (hsub 10 (List.mem_of_mem_drop
      (hpre.subset (by decide)))), parseHostLine, List.dropWhile_eq_nil_iff.2]
    intro b hb
    rw [bne_iff_ne]
    rintro rfl
    exact hcolon (hsub 58 hb)
  unfold extractHost
  split
  · exact hpart _ _
  · rfl

/-- The name of a request is not seen if it stands behind the first 2048 bytes. -/
theorem farHost_unseen :
    dispatchTcp noTls (fromUserRules ipnet [blockExample]) toTen.dst (some [farHost.head]) =
        ⟨.proxy, none⟩ ∧
      decide (fromUserRules ipnet [blockExample]) ⟨toTen.dst, peek noTls farHost.head, .tcp⟩ =
        ⟨.block, some 0⟩ := by
  obtain ⟨rest, hhead⟩ : ∃ rest, farHost.head = (farHost.method ++ farHost.target) ++ rest :=
    ⟨_, by rw [Request.head, Request.requestLine, ← List.append_assoc farHost.method,
      List.append_assoc]⟩
  have htarget : farHost.target.length = peekBufSize := List.length_replicate
  have hmem : ∀ b ∈ farHost.head.take peekBufSize, b ∈ farHost.method ++ farHost.target := by
    intro b hb
    rw [hhead, List.take_append_of_le_length (by rw [List.length_append]; omega)] at hb
    exact List.mem_of_mem_take hb
  have hcut : peek noTls (farHost.head.take peekBufSize) = none := by
    have hline (c : UInt8) (hc : c ∉ farHost.method ∧ c ≠ 97) :
        c ∉ farHost.head.take peekBufSize := fun hin ↦ by
      rcases List.mem_append.1 (hmem c hin) with hin | hin
      · exact hc.1 hin
      · exact hc.2 (List.eq_of_mem_replicate hin)
    exact extractHost_of_not_mem (hline 58 (by decide)) (hline 10 (by decide))
  have hlen : farHost.head.length ≤ maxScan := by
    rw [Request.head, Request.requestLine, List.length_append, List.length_append,
      List.length_append, htarget]
    decide
  have hwhole : peek noTls farHost.head = some "example.com".toList := by
    have hhost := farHost.extractHost_head hlen []
    rw [List.append_nil] at hhost
    rw [peek, hhost]
    decide
  constructor
  · have hdomain : dispatchTcp noTls (fromUserRules ipnet [blockExample]) toTen.dst
        (some [farHost.head]) =
          decide (fromUserRules ipnet [blockExample]) ⟨toTen.dst, none, .tcp⟩ := by
      have hpeeked : peekFlow peekBufSize [] [farHost.head] = farHost.head.take peekBufSize := by
        rw [peekFlow_eq, List.flatten_singleton, List.nil_append]
      simp only [dispatchTcp, Option.map_some, hpeeked, hcut, ite_self]
    rw [hdomain]
    rfl
  · rw [hwhole]
    rfl

end Hole.Filter
