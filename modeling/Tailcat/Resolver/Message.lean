import Tailcat.Base.Octets

/-!
# DNS messages

What a DNS message is, as far as its questions and its answers go: names are lists of labels that
end with an empty label or with a compression pointer, and the data of a TXT record in the Internet
class are character-strings. The bounds of the format are fields, so that every message has a wire
form.

## Main definitions

* `DnsName`, `DnsQuestion`, `DnsAnswer`, `DnsMessage`: messages and their parts
* `DnsMessage.encode`: the wire form of a message
* `DnsMessage.payloads`: what the TXT records of a message say
-/

namespace Tailcat

/-- Two octets, most significant first. -/
def encode16 (v : UInt16) : List UInt8 := beBytes 2 v.toNat

@[simp] theorem length_encode16 (v : UInt16) : (encode16 v).length = 2 := length_beBytes 2 _

/-- The two octets are joined to the number again. -/
theorem encode16_eq (v : UInt16) :
    ∃ hi lo : UInt8, encode16 v = [hi, lo] ∧ hi.toUInt16 <<< 8 ||| lo.toUInt16 = v := by
  refine ⟨UInt8.ofNat (v.toNat / 256 ^ 1), UInt8.ofNat (v.toNat / 256 ^ 0), rfl, ?_⟩
  apply UInt16.toNat_inj.mp
  rw [UInt16.toNat_shiftLeft_or]
  exact beNat_beBytes_of_lt (k := 2) v.toNat_lt

/-! ## Names -/

/-- A label: up to 63 octets, and not none. -/
structure DnsLabel where
  octets : List UInt8
  pos : 0 < octets.length
  le : octets.length ≤ 63

/-- The length of a label in front of it. -/
def DnsLabel.encode (l : DnsLabel) : List UInt8 := UInt8.ofNat l.octets.length :: l.octets

/-- A name ends with an empty label or with a pointer to the rest of it. -/
inductive DnsNameEnd
  | root
  | pointer (high low : UInt8) (h : high &&& 0xc0 = 0xc0)

/-- The empty label, or the pointer. -/
def DnsNameEnd.encode : DnsNameEnd → List UInt8
  | .root => [0]
  | .pointer high low _ => [high, low]

/-- The labels of a name, and how it ends. -/
structure DnsName where
  labels : List DnsLabel
  ending : DnsNameEnd

/-- The labels of a name with its end behind them. -/
def DnsName.encode (n : DnsName) : List UInt8 := n.labels.flatMap DnsLabel.encode ++ n.ending.encode

/-! ## Questions and answers -/

/-- The name that is asked for, with the type and the class. -/
structure DnsQuestion where
  name : DnsName
  typeAndClass : Octets 4

/-- A question in the message. -/
def DnsQuestion.encode (q : DnsQuestion) : List UInt8 := q.name.encode ++ q.typeAndClass.toList

/-- A string whose length fits in an octet. -/
structure CharacterString where
  octets : List UInt8
  lt : octets.length < 256

/-- The length of a string in front of it. -/
def CharacterString.encode (s : CharacterString) : List UInt8 :=
  UInt8.ofNat s.octets.length :: s.octets

/-- The type code of a TXT record. -/
def nsTTxt : UInt16 := 16

/-- The class code of the Internet. -/
def nsCIn : UInt16 := 1

/-- The type, the class and the data of a record, of which the length fits in two octets. -/
inductive DnsRecord
  | txt (strings : List CharacterString) (h : (strings.flatMap CharacterString.encode).length < 65536)
  | other (type klass : UInt16) (data : List UInt8) (h : data.length < 65536)
      (hne : ¬ (type = nsTTxt ∧ klass = nsCIn))

namespace DnsRecord

/-- The type code. -/
def type : DnsRecord → UInt16
  | txt .. => nsTTxt
  | other t .. => t

/-- The class code. -/
def klass : DnsRecord → UInt16
  | txt .. => nsCIn
  | other _ k .. => k

/-- The data, which is behind its length in the message. -/
def data : DnsRecord → List UInt8
  | txt strings _ => strings.flatMap CharacterString.encode
  | other _ _ d .. => d

theorem length_data_lt (r : DnsRecord) : r.data.length < 65536 := by
  cases r with
  | txt strings h => exact h
  | other t k d h hne => exact h

/-- What a TXT record says. -/
def payload : DnsRecord → Option (List UInt8)
  | txt strings _ => some (strings.flatMap CharacterString.octets)
  | other .. => none

end DnsRecord

/-- A record with its name and its time to live. -/
structure DnsAnswer where
  name : DnsName
  ttl : Octets 4
  record : DnsRecord

namespace DnsAnswer

/-- The part of an answer between its name and its data. -/
def header (a : DnsAnswer) : List UInt8 :=
  encode16 a.record.type ++ encode16 a.record.klass ++ a.ttl.toList ++
    encode16 (UInt16.ofNat a.record.data.length)

@[simp] theorem length_header (a : DnsAnswer) : a.header.length = 10 := by
  simp [header]

/-- An answer in the message. -/
def encode (a : DnsAnswer) : List UInt8 := a.name.encode ++ (a.header ++ a.record.data)

end DnsAnswer

/-! ## Messages -/

/-- A message. What is behind its answers may be anything. -/
structure DnsMessage where
  idAndFlags : Octets 4
  questions : List DnsQuestion
  questions_lt : questions.length < 65536
  answers : List DnsAnswer
  answers_lt : answers.length < 65536
  otherCounts : Octets 4
  others : List UInt8

namespace DnsMessage

variable (m : DnsMessage)

/-- The first twelve octets, with the numbers of the questions and the answers. -/
def header : List UInt8 :=
  m.idAndFlags.toList ++ (encode16 (UInt16.ofNat m.questions.length) ++
    (encode16 (UInt16.ofNat m.answers.length) ++ m.otherCounts.toList))

@[simp] theorem length_header : m.header.length = 12 := by
  simp [header]

/-- The questions and the answers. -/
def sections : List UInt8 :=
  m.questions.flatMap DnsQuestion.encode ++ m.answers.flatMap DnsAnswer.encode

/-- The message up to its last answer. -/
def front : List UInt8 := m.header ++ m.sections

/-- The wire form. -/
def encode : List UInt8 := m.front ++ m.others

/-- What the TXT records of the Internet class say, in order. -/
def payloads : List (List UInt8) := m.answers.filterMap fun a => a.record.payload

end DnsMessage

end Tailcat
