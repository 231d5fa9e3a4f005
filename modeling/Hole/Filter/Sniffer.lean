import Hole.Filter.HttpHost

/-!
# The sniffer

`crates/bridge/src/filter/sniffer.rs` and `sniffer/tls_sni.rs`: the name of a flow is that of the
first `ClientHello`, or that of a request of HTTP. The parsers of TLS are a parameter.
-/

namespace Hole.Filter

open Text

/-- `TlsMessage`, as far as it is looked at. -/
inductive TlsMessage
  /-- A `ClientHello`, with its extensions if it has any. -/
  | clientHello (ext : Option Bytes)
  | other

/-- `TlsExtension`, as far as it is looked at: the names, with the numbers of their types. -/
inductive TlsExtension
  | sni (names : List (UInt8 × Bytes))
  | other

/-- The crate `tls_parser`: what is parsed of the beginning of bytes, if it is well formed. -/
structure TlsParser where
  parsePlaintext : Bytes → Option (List TlsMessage)
  parseExtensions : Bytes → Option (List TlsExtension)

/-- What is published of `tls_parser` on no bytes: more are needed. -/
def TlsParser.NeedsBytes (tls : TlsParser) : Prop := tls.parsePlaintext [] = none

section Peek

variable (tls : TlsParser)

/-- The name of an entry, if its type is `SNIType::HostName`. -/
def sniName (entry : UInt8 × Bytes) : Option (List Char) :=
  if entry.1 = 0 then
    match readUtf8 entry.2 with
    | some s => if s = [] then none else some (toAsciiLowercase s)
    | none => none
  else none

/-- `extract_sni_from_extensions`. -/
def extractSniFromExtensions (extBytes : Bytes) : Option (List Char) := do
  let extensions ← tls.parseExtensions extBytes
  extensions.findSome? fun ext ↦
    match ext with
    | .sni names => names.findSome? sniName
    | .other => none

/-- The loop of `extract_sni`. -/
def sniOfMessages : List TlsMessage → Option (List Char)
  | [] => none
  -- The first decides, with a name or without.
  | .clientHello ext :: _ => ext.bind (extractSniFromExtensions tls)
  | .other :: messages => sniOfMessages messages

/-- `extract_sni`. -/
def extractSni (buf : Bytes) : Option (List Char) := (tls.parsePlaintext buf).bind
    (sniOfMessages tls)

/-- `filter::peek`. -/
def peek (buf : Bytes) : Option (List Char) := (extractSni tls buf).or (extractHost buf)

end Peek

theorem extractHost_nil : extractHost [] = none := by
  rw [extractHost, if_neg (by decide)]

/-- No bytes have no name. -/
theorem peek_nil {tls : TlsParser} (h : tls.NeedsBytes) : peek tls [] = none := by
  rw [peek, extractSni, h, extractHost_nil]
  rfl

end Hole.Filter
