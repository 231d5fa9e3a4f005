import Hole.Galoshes.Framing
import Hole.Net.Octets
import Hole.Plugin.ExRay

/-!
# The messages of the forwarder

What `crates/bridge/src/dns/forwarder.rs` reads off an upstream and what it makes of a query that no
upstream answered. A query is any bytes, from any application, and so is what an upstream sends. A
slice that is not there panics.
-/

namespace Hole.Dns

open Text

/-- A message of DNS, or what stands where one should. -/
abbrev Message := List UInt8

/-- `MAX_REPLY_SIZE`. -/
def maxReplySize : Nat := 16 * 1024

/-- `RCODE_SERVFAIL`. -/
def rcodeServfail : UInt8 := 2

/-! ### The question -/

/-- `question_end`, from the label at an offset on, with the bytes that are left there. -/
def questionEndFrom (i : Nat) : List UInt8 → Option Nat
  | [] => none
  | len :: rest =>
    if len = 0 then some (i + 1 + 4)
    -- A pointer, which is not valid here and tolerated.
    else if len &&& 0xC0 ≠ 0 then some (i + 2 + 4)
    else if rest.length ≤ len.toNat then none
    else questionEndFrom (i + 1 + len.toNat) (rest.drop len.toNat)
  termination_by q => q.length
  decreasing_by
    rw [List.length_drop, List.length_cons]
    omega

/-- `question_end`. -/
def questionEnd (q : List UInt8) : Option Nat := questionEndFrom 0 q

/-- The header of a SERVFAIL: QR and RA are set, OPCODE and RD are those of the query, and nothing
is counted but the questions. -/
def servfailHeader (query : Message) : Message :=
  let id := if 2 ≤ query.length then query.take 2 else [0, 0]
  let opcodeRd : UInt8 := if 4 ≤ query.length then query.getD 2 0 &&& 0b01111001 else 0
  let qdcount := if 6 ≤ query.length then (query.drop 4).take 2 else [0, 0]
  id ++ [0b10000000 ||| opcodeRd, 0b10000000 ||| (rcodeServfail &&& 0x0F)] ++ qdcount ++
    [0, 0, 0, 0, 0, 0]

/-- `synthesize_servfail`; nothing if it panics. -/
def synthesizeServfail (query : Message) : Option Message :=
  if 12 < query.length then
    match questionEnd (query.drop 12) with
    | some qend => (slice query 12 (12 + qend)).map (servfailHeader query ++ ·)
    | none => some (servfailHeader query)
  else some (servfailHeader query)

/-! ### What a stream brings -/

/-- What comes once a stream has brought its bytes. -/
inductive Close
  | eof
  | fails
  | stalls

/-- The read side of a stream, to the end of the attempt. -/
structure Stream where
  bytes : List UInt8
  close : Close

/-- `UpstreamLayer`. -/
inductive UpstreamLayer
  | connect
  | tls
  | http
  | io
  | timeout

/-- The error of a read that finds no more bytes, or the budget that ends it. -/
def Close.layer : Close → UpstreamLayer
  | .eof => .io
  | .fails => .io
  | .stalls => .timeout

/-- `read_exact`. -/
def Stream.readExact (s : Stream) (n : Nat) : Except UpstreamLayer (List UInt8 × Stream) :=
  if n ≤ s.bytes.length then .ok (s.bytes.take n, { s with bytes := s.bytes.drop n })
  else .error s.close.layer

/-- `take(limit)` and `read_to_end`. -/
def Stream.readToEnd (s : Stream) (limit : Nat) : Except UpstreamLayer (List UInt8) :=
  if limit ≤ s.bytes.length then .ok (s.bytes.take limit)
  else match s.close with
    | .eof => .ok s.bytes
    | .fails => .error .io
    | .stalls => .error .timeout

/-- The reply of a length. -/
def readReply (s : Stream) (replyLen : Nat) : Except UpstreamLayer Message :=
  if maxReplySize < replyLen then .error .io else (s.readExact replyLen).map (·.1)

/-- The reply that `exchange_tcp_framed` reads. -/
def readFramed (s : Stream) : Except UpstreamLayer Message := do
  let (lenBuf, s) ← s.readExact 2
  readReply s (Galoshes.fromBeBytes (lenBuf.getD 0 0) (lenBuf.getD 1 0)).toNat

/-! ### The response of an HTTP server -/

/-- `find_double_crlf`. -/
def findDoubleCrlf : List UInt8 → Option Nat
  | [] => none
  | b :: rest =>
    if [13, 10, 13, 10].isPrefixOf (b :: rest) then some 0 else (findDoubleCrlf rest).map (· + 1)

/-- `split("\r\n")`: the first line, and the others. -/
def splitCrlf : List Char → List Char × List (List Char)
  | [] => ([], [])
  | '\r' :: '\n' :: rest => ([], (splitCrlf rest).1 :: (splitCrlf rest).2)
  | c :: rest => (c :: (splitCrlf rest).1, (splitCrlf rest).2)

/-- The headers that count. -/
structure Headers where
  contentLength : Option Nat
  contentType : Option (List Char)

/-- A line of the head. -/
def Headers.line (headers : Headers) (line : List Char) : Headers :=
  match splitOnce ':' line with
  | none => headers
  | some (k, v) =>
    let k := toAsciiLowercase (Plugin.trimSpace k)
    let v := Plugin.trimSpace v
    if k = "content-length".toList then
      { headers with contentLength := readUnsigned (2 ^ 64) v }
    else if k = "content-type".toList then { headers with contentType := some v }
    else headers

/-- The second word of a status line. -/
def statusCode (statusLine : List Char) : Option (List Char) :=
  (splitOnce ' ' statusLine).map fun parts ↦ parts.2.takeWhile (· ≠ ' ')

/-- `parse_http_dns_response`. -/
def parseHttpDnsResponse (resp : List UInt8) : Except String Message := do
  let some bodySep := findDoubleCrlf resp | throw "no header/body separator"
  let body := resp.drop (bodySep + 4)
  let some headStr := readUtf8 (resp.take bodySep) | throw "non-utf8 response head"
  let (statusLine, lines) := splitCrlf headStr
  let some code := statusCode statusLine | throw "missing status code"
  if code ≠ "200".toList then throw ("non-200 DoH response: " ++ String.ofList statusLine)
  let headers := lines.foldl Headers.line ⟨none, none⟩
  if let some ct := headers.contentType then
    if toAsciiLowercase ct ≠ "application/dns-message".toList then
      throw ("unexpected Content-Type: " ++ String.ofList ct)
  let some n := headers.contentLength | throw "missing Content-Length"
  if maxReplySize < n then throw "reply too large"
  if body.length < n then throw "short DoH body"
  return body.take n

/-! ### What is synthesized -/

/-- A name that ends in the query has its type and its class there too. -/
def QuestionFits (query : Message) : Prop :=
  ∀ qend, questionEnd (query.drop 12) = some qend → 12 + qend ≤ query.length

instance (query : Message) : Decidable (QuestionFits query) :=
  decidable_of_iff ((questionEnd (query.drop 12)).all fun qend ↦ 12 + qend ≤ query.length) <| by
    cases h : questionEnd (query.drop 12) <;> simp [QuestionFits, h]

/-- A reply to the query: a header, with the transaction id of the query and the bit QR. -/
structure Answers (query reply : Message) : Prop where
  header : 12 ≤ reply.length
  id : 2 ≤ query.length → reply.take 2 = query.take 2
  isReply : ∃ flags, reply[2]? = some flags ∧ flags &&& 0x80 ≠ 0

theorem reply_bit (flags : UInt8) : (0b10000000 ||| flags) &&& 0x80 = 0x80 := by
  apply UInt8.toBitVec_inj.1
  ext i hi
  simp only [UInt8.toBitVec_and, UInt8.toBitVec_or, BitVec.getElem_and, BitVec.getElem_or]
  simp
  intro h
  exact .inl h

/-- The OPCODE and RD of a query, where they are there. -/
def opcodeRd (query : Message) : UInt8 :=
  if 4 ≤ query.length then query.getD 2 0 &&& 0b01111001 else 0

/-- The twelve bytes of the header. -/
theorem servfailHeader_eq (query : Message) :
    ∃ idHigh idLow qdHigh qdLow,
      servfailHeader query = [idHigh, idLow, 0b10000000 ||| opcodeRd query,
        0b10000000 ||| (rcodeServfail &&& 0x0F), qdHigh, qdLow, 0, 0, 0, 0, 0, 0] ∧
      (2 ≤ query.length → query.take 2 = [idHigh, idLow]) ∧
      if 6 ≤ query.length then qdHigh = query.getD 4 0 ∧ qdLow = query.getD 5 0
      else qdHigh = 0 ∧ qdLow = 0 := by
  match query with
  | [] => exact ⟨0, 0, 0, 0, rfl, by simp, by simp⟩
  | [_] => exact ⟨0, 0, 0, 0, rfl, by simp, by simp⟩
  | [b0, b1] => exact ⟨b0, b1, 0, 0, rfl, by simp, by simp⟩
  | [b0, b1, _] => exact ⟨b0, b1, 0, 0, rfl, by simp, by simp⟩
  | [b0, b1, b2, _] => exact ⟨b0, b1, 0, 0, by simp [servfailHeader, opcodeRd], by simp, by simp⟩
  | [b0, b1, b2, _, _] => exact ⟨b0, b1, 0, 0, by simp [servfailHeader, opcodeRd], by simp, by simp⟩
  | b0 :: b1 :: b2 :: _ :: b4 :: b5 :: rest =>
    exact ⟨b0, b1, b4, b5, by simp [servfailHeader, opcodeRd], by simp, by simp⟩

/-- The header is a reply already, whatever follows it. -/
theorem answers_servfailHeader (query rest : Message) :
    Answers query (servfailHeader query ++ rest) := by
  obtain ⟨idHigh, idLow, qdHigh, qdLow, hheader, hid, -⟩ := servfailHeader_eq query
  rw [hheader]
  refine ⟨by simp, fun h ↦ ?_, 0b10000000 ||| opcodeRd query, rfl, ?_⟩
  · rw [hid h]
    rfl
  · rw [reply_bit]
    decide

/-- A query that nobody answered is answered, unless its question reaches beyond it. -/
theorem synthesizeServfail_of_fits {query : Message} (h : QuestionFits query) :
    ∃ reply, synthesizeServfail query = some reply ∧ Answers query reply := by
  have hheader : Answers query (servfailHeader query) := by
    simpa using answers_servfailHeader query []
  unfold synthesizeServfail
  split
  · split
    · next qend hqend =>
      have hslice : slice query 12 (12 + qend) = some ((query.drop 12).take (12 + qend - 12)) :=
        if_pos ⟨Nat.le_add_right _ _, h qend hqend⟩
      rw [hslice]
      exact ⟨_, rfl, answers_servfailHeader query _⟩
    · exact ⟨_, rfl, hheader⟩
  · exact ⟨_, rfl, hheader⟩

/-- Otherwise the answer panics. -/
theorem synthesizeServfail_of_not_fits {query : Message} (h : ¬QuestionFits query) :
    synthesizeServfail query = none := by
  simp only [QuestionFits, not_forall, Nat.not_le] at h
  obtain ⟨qend, hqend, hlt⟩ := h
  have hlong : 12 < query.length := by
    by_contra hshort
    rw [List.drop_eq_nil_of_le (Nat.not_lt.1 hshort)] at hqend
    simp [questionEnd, questionEndFrom] at hqend
  have hslice : slice query 12 (12 + qend) = none := if_neg fun hin ↦ absurd hin.2 (by omega)
  simp only [synthesizeServfail, hlong, if_true, hqend, hslice, Option.map_none]

/-- A query of no more than a header has no question. -/
theorem questionFits_of_le {query : Message} (h : query.length ≤ 12) : QuestionFits query := by
  intro qend hqend
  rw [List.drop_eq_nil_of_le h] at hqend
  simp [questionEnd, questionEndFrom] at hqend

end Hole.Dns
