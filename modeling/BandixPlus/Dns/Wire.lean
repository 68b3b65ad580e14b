import BandixPlus.Lib.Layout
import BandixPlus.Dns.Packet

/-! # The wire format of DNS messages

What a DNS message says, and which bytes say it. A name may be written in full, or end in a pointer to
an earlier or later place of the message, where it goes on.

* `NameAt`: the bytes of a name, with the number of pointers that are followed.
* `Encodes`: the bytes of a message.
* `decoded`: what `parse_dns_message` should make of it. -/

namespace BandixPlus.Dns.Wire

open BandixPlus.Lib.Bytes BandixPlus.Lib.Checked BandixPlus.Lib.Layout
open BandixPlus.Net.Addresses BandixPlus.Dns.Monitor BandixPlus.Dns.Name BandixPlus.Dns.Packet
open BandixPlus.Net.Text (fromUtf8Lossy)

/-! ### Names -/

def asciiText (bytes : List UInt8) : String := .ofList (bytes.map fun b => Char.ofNat b.toNat)

/-- ASCII labels, 255 bytes at most with their separators. -/
structure DomainName where
  labels : List (List UInt8)
  label_length : ∀ l ∈ labels, 0 < l.length ∧ l.length ≤ 63
  ascii : ∀ l ∈ labels, ∀ b ∈ l, b.toNat < 128
  short : nameLen labels ≤ 255

def DomainName.text (name : DomainName) : String := ".".intercalate (name.labels.map asciiText)

/-- The labels stand at a position, behind so many pointers, and the bytes behind them start at
another position. -/
inductive NameAt (dns : Slice) : ℕ → List (List UInt8) → ℕ → ℕ → Prop
  | root {position : ℕ} : Holds dns position [0] → NameAt dns position [] 0 (position + 1)
  | label {position jumps next : ℕ} {l : List UInt8} {labels : List (List UInt8)} :
      Holds dns position (UInt8.ofNat l.length :: l) →
      NameAt dns (position + 1 + l.length) labels jumps next →
      NameAt dns position (l :: labels) jumps next
  | pointer {position jumps next : ℕ} {labels : List (List UInt8)} (target : Fin (2 ^ 14)) :
      Holds dns position (beBytes 2 (0xc000 + target)) → NameAt dns target labels jumps next →
      NameAt dns position labels (jumps + 1) (position + 2)

theorem NameAt.lt_len {dns : Slice} {position jumps next : ℕ} {labels : List (List UInt8)}
    (h : NameAt dns position labels jumps next) : position < dns.len := by
  cases h with
  | root h => exact h.byte.1
  | label h _ => exact (holds_cons.mp h).1.byte.1
  | pointer target h _ =>
    have hle : position + 2 ≤ dns.len := h.le (by simp)
    omega

/-- With 16 pointers at most. -/
def EncodesName (dns : Slice) (position : ℕ) (name : DomainName) (next : ℕ) : Prop :=
  ∃ jumps ≤ 16, NameAt dns position name.labels jumps next

/-! ### Questions and records -/

structure Question where
  name : DomainName
  qtype : UInt16
  qclass : UInt16

def EncodesQuestion (dns : Slice) (position : ℕ) (q : Question) (stop : ℕ) : Prop :=
  ∃ next, EncodesName dns position q.name next ∧
    Holds dns next (beBytes 2 q.qtype.toNat ++ beBytes 2 q.qclass.toNat) ∧ stop = next + 4

/-- The data of a record, of the types that are read and of all others. -/
inductive RData where
  | a (ip : UInt32)
  | aaaa (ip : BitVec 128)
  | cname (name : DomainName)
  | ns (name : DomainName)
  | ptr (name : DomainName)
  | mx (priority : UInt16) (exchange : DomainName)
  | txt (strings : List (List UInt8)) (short : ∀ s ∈ strings, s.length ≤ 255)
  | other (rrType : UInt16) (data : List UInt8) (unread : rrType ∉ [1, 28, 5, 2, 12, 15, 16])

namespace RData

@[simp] def rrType : RData → UInt16
  | a _ => 1
  | aaaa _ => 28
  | cname _ => 5
  | ns _ => 2
  | ptr _ => 12
  | mx _ _ => 15
  | txt _ _ => 16
  | other rrType _ _ => rrType

/-- The record string. -/
def text : RData → String
  | a ip => "A:" ++ (IpAddr.v4 ip).toString
  | aaaa ip => "AAAA:" ++ (IpAddr.v6 ip).toString
  | cname name => "CNAME:" ++ name.text
  | ns name => "NS:" ++ name.text
  | ptr name => "PTR:" ++ name.text
  | mx priority exchange => "MX:" ++ exchange.text ++ " priority=" ++ toString priority.toNat
  | txt strings _ => "TXT:" ++ " ".intercalate (strings.map fromUtf8Lossy)
  | other rrType data _ => dnsTypeName rrType ++ ": " ++ toString data.length ++ " bytes"

/-- The address of an A or AAAA record. -/
def address : RData → Option String
  | a ip => some (IpAddr.v4 ip).toString
  | aaaa ip => some (IpAddr.v6 ip).toString
  | _ => none

end RData

/-- A string of a TXT record behind its length. -/
def characterString (s : List UInt8) : List UInt8 := UInt8.ofNat s.length :: s

def EncodesData (dns : Slice) (start : ℕ) (data : RData) (stop : ℕ) : Prop :=
  match data with
  | .a ip => Holds dns start (beBytes 4 ip.toNat) ∧ stop = start + 4
  | .aaaa ip => Holds dns start (beBytes 16 ip.toNat) ∧ stop = start + 16
  | .cname name | .ns name | .ptr name => EncodesName dns start name stop
  | .mx priority exchange =>
    Holds dns start (beBytes 2 priority.toNat) ∧ EncodesName dns (start + 2) exchange stop
  | .txt strings _ =>
    Holds dns start (strings.flatMap characterString) ∧
      stop = start + (strings.flatMap characterString).length
  | .other _ data _ => Holds dns start data ∧ stop = start + data.length

structure ResourceRecord where
  name : DomainName
  rrClass : UInt16
  ttl : UInt32
  data : RData

/-- Type, class, time to live and the size of the data stand between the name and the data. -/
def EncodesRecord (dns : Slice) (position : ℕ) (rr : ResourceRecord) (stop : ℕ) : Prop :=
  ∃ next size, EncodesName dns position rr.name next ∧ size < 2 ^ 16 ∧ stop = next + 10 + size ∧
    Holds dns next (beBytes 2 rr.data.rrType.toNat ++
      (beBytes 2 rr.rrClass.toNat ++ beBytes 4 rr.ttl.toNat) ++ beBytes 2 size) ∧
    EncodesData dns (next + 10) rr.data stop

/-! ### Messages -/

/-- One to 16 questions, and the answers. -/
structure Message where
  transactionId : UInt16
  response : Bool
  /-- The bits of the header between the first and the response code. -/
  middle : Fin (2 ^ 11)
  rcode : Fin (2 ^ 4)
  question : Question
  moreQuestions : List Question
  answers : List ResourceRecord
  questions_le : moreQuestions.length ≤ 15
  answers_lt : answers.length < 2 ^ 16

def Message.flags (m : Message) : ℕ := m.response.toNat * 2 ^ 15 + m.middle * 2 ^ 4 + m.rcode

/-- The rest of the header, and what stands behind the answers, may be anything. -/
structure Encodes (dns : Slice) (m : Message) : Prop where
  header : Holds dns 0 (beBytes 2 m.transactionId.toNat ++ beBytes 2 m.flags ++
    beBytes 2 (m.moreQuestions.length + 1) ++ beBytes 2 m.answers.length)
  sections : ∃ questionsEnd answersEnd,
    Consecutive (EncodesQuestion dns) 12 (m.question :: m.moreQuestions) questionsEnd ∧
      Consecutive (EncodesRecord dns) questionsEnd m.answers answersEnd

/-- The answers that are read: the first 64 of a response. -/
def Message.readAnswers (m : Message) : List ResourceRecord :=
  if m.response then m.answers.take 64 else []

def Message.decoded (m : Message) (sourceIp destinationIp : IpAddr) (sourcePort destinationPort : UInt16)
    (protocol : String) : ParsedDnsMessage where
  isQuery := !m.response
  sourceIp := sourceIp
  destinationIp := destinationIp
  sourcePort := sourcePort
  destinationPort := destinationPort
  transactionId := m.transactionId
  domain := toAsciiLowercase m.question.name.text
  queryType := dnsTypeName m.question.qtype
  protocol := protocol
  responseCode := if m.response then some (dnsResponseCode (UInt8.ofNat m.rcode)) else none
  responseIps := m.readAnswers.filterMap fun rr => rr.data.address
  responseRecords := m.readAnswers.map fun rr => rr.data.text

end BandixPlus.Dns.Wire
