import Zeroconf.Message
import Zeroconf.Service
import Zeroconf.Text.Hex
import Zeroconf.Text.Utf8

/-!
This module contains the lines in which the command presents answers, and the names that it knows
for record types.
-/

namespace Zeroconf

def RecordType.names : List (String × UInt16) :=
  [("A", 1), ("NS", 2), ("CNAME", 5), ("SOA", 6), ("NULL", 10), ("PTR", 12), ("HINFO", 13),
    ("MX", 15), ("TXT", 16), ("SIG", 24), ("KEY", 25), ("AAAA", 28), ("SRV", 33), ("NAPTR", 35),
    ("CERT", 37), ("DS", 43), ("SSHFP", 44), ("RRSIG", 46), ("NSEC", 47), ("DNSKEY", 48),
    ("NSEC3", 50), ("NSEC3PARAM", 51), ("TLSA", 52), ("CDS", 59), ("CDNSKEY", 60),
    ("OPENPGPKEY", 61), ("CSYNC", 62), ("SVCB", 64), ("HTTPS", 65), ("TSIG", 250), ("AXFR", 252),
    ("ANY", 255), ("*", 255), ("CAA", 257), ("ANAME", 65305)]

/--
The record type that a user means, in either case of letters.
-/
def RecordType.ofText? (text : String) : Option RecordType :=
  (names.lookup (String.ofList (text.toList.map Char.toUpper))).map RecordType.mk

def RecordType.text (type : RecordType) : String :=
  match names.find? (·.2 == type.code) with
  | some (name, _) => name
  | none => s!"TYPE{type.code.toNat}"

def RecordData.text : RecordData → String
  | a ip => ip.text
  | aaaa ip => ip.text
  | ptr target | cname target | ns target => target.text
  | txt strings =>
    String.join (strings.map fun string => String.ofList (Text.Utf8.decodeTolerant string))
  | srv priority weight port target =>
    s!"{priority.toNat} {weight.toNat} {port.toNat} {target.text}"
  | raw payload =>
    let bytes := payload.bytes
    s!"\\# {bytes.length} {String.ofList (Text.Hex.encode bytes)}"
  | absent => ""

def Record.line (record : Record) : String :=
  let cls := if record.cls == internetClass then "IN" else s!"CLASS{record.cls.toNat}"
  s!"{record.name.text} {record.ttl.toNat} {cls} {record.type.text} {record.data.text}"

def ResponseCode.names : List String :=
  ["NoError", "FormErr", "ServFail", "NXDomain", "NotImp", "Refused", "YXDomain", "YXRRSet",
    "NXRRSet", "NotAuth", "NotZone"]

def ResponseCode.text (code : ResponseCode) : String :=
  (names[code.toNat]?).getD s!"Unknown({code.toNat})"

def Message.lines (message : Message) : List String :=
  let additionals :=
    if message.additionals.isEmpty then []
    else ";; additional" :: message.additionals.map Record.line
  s!";; status: {ResponseCode.text message.code}" ::
    message.answers.map Record.line ++ additionals

def Service.line (service : Service) : String :=
  match service.instanceText with
  | some name => "\t".intercalate [name, service.serviceType, service.domain]
  | none => service.text

/--
The lines that present the instances of the service that a user meant by `type`.
-/
def Service.lines (type : String) (services : List Service) : List String :=
  if services.isEmpty then [s!";; no instances of {type}"] else services.map line

end Zeroconf
