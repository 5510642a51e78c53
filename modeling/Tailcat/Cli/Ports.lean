import Tailcat.Base.Ctype
import Tailcat.Protocol.Types

/-!
# Port arguments

Four commands parse ports, each on its own and in the same way: `std::stoul` reads a number, and the
argument is refused if there is something behind the number, or the number is no port.

`std::stoul` skips blanks and takes a sign, so that some arguments are ports that do not consist of
digits. It throws an exception of another kind where the number does not fit in 64 bits.

## Main definitions

* `Cli.parsePort`, `parseSshPort`, `parseForwardPort`, `Socks.parsePort`: the four parsers
* `MeetsPortRule`: just the texts of digits that spell a port are accepted
* `Decorated`, `TooLarge`: numbers with blanks or a sign, and numbers that do not fit

## Main results

* `ports_parsed_iff`: which arguments are parsed by the rule
-/

namespace Tailcat

open Ctype

/-- What a parser of ports throws. -/
inductive PortError
  | invalidArgument (what : String)
  | outOfRange (what : String)
  deriving DecidableEq

/-- `std::stoul` in base 10, with how much it consumes. -/
def stoul (text : List UInt8) : Except PortError (UInt64 × ℕ) :=
  match strtoul text with
  | .nothing => .error (.invalidArgument "stoul")
  | .range => .error (.outOfRange "stoul")
  | .value n consumed => .ok (n, consumed)

/-- What the parsers have in common. They differ in the texts of their exceptions, and in whether
the port may be zero. -/
def parsePortText (empty invalid : String) (allowZero : Bool) (text : List UInt8) :
    Except PortError UInt16 :=
  if text = [] then
    .error (.invalidArgument empty)
  else
    match stoul text with
    | .error e => .error e
    | .ok (value, consumed) =>
      if consumed ≠ text.length ∨ 65535 < value ∨ (¬ allowZero ∧ value = 0) then
        .error (.invalidArgument (invalid ++ octetsText text))
      else
        .ok value.toUInt16

/-- The port of `connect` and `serve`. -/
def Cli.parsePort (text : List UInt8) : Except PortError UInt16 :=
  parsePortText "empty port number" "invalid TCP port: " false text

/-- The port of `ssh` and `scp`. -/
def parseSshPort (text : List UInt8) : Except PortError UInt16 :=
  parsePortText "SSH port is empty" "invalid SSH port: " false text

/-- A port of `forward`, of which the local one may be zero. -/
def parseForwardPort (text : List UInt8) (allowZero : Bool := false) : Except PortError UInt16 :=
  parsePortText "empty forward port" "invalid forward port: " allowZero text

/-- The port that the proxy listens at, which may be zero. -/
def Socks.parsePort (text : List UInt8) (allowZero : Bool) : Except PortError UInt16 :=
  parsePortText "empty SOCKS listen port" "invalid port: " allowZero text

/-! ## The rule -/

/-- A text of digits that spell a port. -/
structure IsPort (allowZero : Bool) (text : List UInt8) (port : UInt16) : Prop where
  ne_nil : text ≠ []
  isDigit : ∀ c ∈ text, isDigit c
  decimal : decimal text = port.toNat
  zero : allowZero ∨ port ≠ 0

/-- Just the texts of digits that spell a port are accepted, as this port, and any other text is an
invalid argument. -/
structure MeetsPortRule (parse : List UInt8 → Except PortError UInt16) (allowZero : Bool)
    (text : List UInt8) : Prop where
  accepts : ∀ port, parse text = .ok port ↔ IsPort allowZero text port
  throws : ∀ e, parse text = .error e → ∃ what, e = .invalidArgument what

/-- A number that the checks let pass. -/
def Passes (allowZero : Bool) (value : UInt64) : Prop :=
  value.toNat ≤ 65535 ∧ (allowZero ∨ value ≠ 0)

instance (allowZero : Bool) (value : UInt64) : Decidable (Passes allowZero value) :=
  inferInstanceAs (Decidable (_ ∧ _))

/-- Blanks or a sign, and digits up to the end, with a value that passes. -/
def Decorated (allowZero : Bool) (text : List UInt8) : Prop :=
  ∃ blanks sign digits, IsNumber text blanks sign digits [] ∧ (blanks ≠ [] ∨ sign ≠ []) ∧
    decimal digits < 2 ^ 64 ∧ Passes allowZero (signed sign (decimal digits))

/-- Behind blanks and a sign, digits that spell a number of more than 64 bits. -/
def TooLarge (text : List UInt8) : Prop :=
  ∃ blanks sign digits rest, IsNumber text blanks sign digits rest ∧ 2 ^ 64 ≤ decimal digits

/-- Two parsers return the same port, or throw exceptions of one kind. -/
def Alike : Except PortError UInt16 → Except PortError UInt16 → Prop
  | .ok port, .ok port' => port = port'
  | .error (.invalidArgument _), .error (.invalidArgument _) => True
  | .error (.outOfRange what), .error (.outOfRange what') => what = what'
  | _, _ => False

section Rule

variable (empty invalid : String) (allowZero : Bool) {text : List UInt8}

/-- What a parser does with a number. -/
theorem parsePortText_of_number {blanks sign digits rest : List UInt8}
    (h : IsNumber text blanks sign digits rest) : parsePortText empty invalid allowZero text =
      if 2 ^ 64 ≤ decimal digits then .error (.outOfRange "stoul")
      else if rest = [] ∧ Passes allowZero (signed sign (decimal digits)) then
        .ok (signed sign (decimal digits)).toUInt16
      else .error (.invalidArgument (invalid ++ octetsText text)) := by
  have hne : text ≠ [] := by
    rintro rfl
    have hlen := congrArg List.length h.text_eq
    have hpos := List.length_pos_iff.mpr h.digits_ne_nil
    simp only [List.length_append, List.length_nil] at hlen
    omega
  unfold parsePortText stoul
  rw [if_neg hne, h.strtoul_eq]
  by_cases hbig : 2 ^ 64 ≤ decimal digits
  · rw [if_pos hbig, if_pos hbig]
  rw [if_neg hbig, if_neg hbig]
  dsimp only
  generalize signed sign (decimal digits) = value
  -- The number is consumed up to the end of the text if nothing is behind it.
  have hconsumed : blanks.length + sign.length + digits.length ≠ text.length ↔ rest ≠ [] := by
    have hlen := congrArg List.length h.text_eq
    simp only [List.length_append] at hlen
    rw [ne_eq, ne_eq, ← List.length_eq_zero_iff]
    omega
  have hrange : 65535 < value ↔ ¬ value.toNat ≤ 65535 := by
    rw [Nat.not_le, UInt64.lt_iff_toNat_lt]
    rfl
  have hpass : (blanks.length + sign.length + digits.length ≠ text.length ∨ 65535 < value ∨
      (¬ allowZero ∧ value = 0)) ↔ ¬ (rest = [] ∧ Passes allowZero value) := by
    rw [hconsumed, hrange, Passes]
    tauto
  by_cases h' : rest = [] ∧ Passes allowZero value
  · rw [if_pos h', if_neg fun hc => hpass.mp hc h']
  · rw [if_neg h', if_pos (hpass.mpr h')]

/-- What is no number is an invalid argument. -/
theorem parsePortText_of_nothing (h : strtoul text = .nothing) :
    ∃ what, parsePortText empty invalid allowZero text = .error (.invalidArgument what) := by
  unfold parsePortText stoul
  rw [h]
  split_ifs
  · exact ⟨_, rfl⟩
  · exact ⟨_, rfl⟩

theorem IsPort.isNumber {allowZero : Bool} {port : UInt16} (h : IsPort allowZero text port) :
    IsNumber text [] [] text [] := .of_digits h.ne_nil h.isDigit

/-- A value that passes, as a port. -/
theorem Passes.toNat_toUInt16 {allowZero : Bool} {value : UInt64} (h : Passes allowZero value) :
    value.toUInt16.toNat = value.toNat := by
  rw [UInt64.toNat_toUInt16]
  exact Nat.mod_eq_of_lt (Nat.lt_succ_of_le h.1)

theorem signed_nil_toNat {n : ℕ} (h : n < 2 ^ 64) : (signed [] n).toNat = n := by
  have hsigned : signed [] n = UInt64.ofNat n := if_neg (by decide)
  rw [hsigned, UInt64.toNat_ofNat', Nat.mod_eq_of_lt h]

/-- A port is its own value, which passes. -/
theorem isPort_iff {port : UInt16} (hne : text ≠ []) (hdigits : ∀ c ∈ text, isDigit c)
    (hfits : decimal text < 2 ^ 64) : IsPort allowZero text port ↔
      Passes allowZero (signed [] (decimal text)) ∧
        (signed [] (decimal text)).toUInt16 = port := by
  have hvalue := signed_nil_toNat hfits
  constructor
  · intro h
    have hport : decimal text = port.toNat := h.decimal
    have hlt := port.toNat_lt
    have hpasses : Passes allowZero (signed [] (decimal text)) := by
      refine ⟨by omega, h.zero.imp_right fun hzero hz => hzero ?_⟩
      apply UInt16.toNat_inj.mp
      rw [← hport, ← hvalue, hz]
      rfl
    refine ⟨hpasses, UInt16.toNat_inj.mp ?_⟩
    rw [hpasses.toNat_toUInt16, hvalue, hport]
  · rintro ⟨hpasses, rfl⟩
    refine ⟨hne, hdigits, by rw [hpasses.toNat_toUInt16, hvalue], hpasses.2.imp_right ?_⟩
    intro hzero hz
    apply hzero
    apply UInt64.toNat_inj.mp
    rw [← hpasses.toNat_toUInt16, hz]
    rfl

section Number

variable {blanks sign digits rest : List UInt8} (h : IsNumber text blanks sign digits rest)

include h

theorem decorated_iff : Decorated allowZero text ↔
    rest = [] ∧ (blanks ≠ [] ∨ sign ≠ []) ∧ decimal digits < 2 ^ 64 ∧
      Passes allowZero (signed sign (decimal digits)) := by
  constructor
  · rintro ⟨_, _, _, h', hdecorated⟩
    obtain ⟨rfl, rfl, rfl, rfl⟩ := h.unique h'
    exact ⟨rfl, hdecorated⟩
  · rintro ⟨rfl, hdecorated⟩
    exact ⟨_, _, _, h, hdecorated⟩

theorem tooLarge_iff : TooLarge text ↔ 2 ^ 64 ≤ decimal digits := by
  constructor
  · rintro ⟨_, _, _, _, h', hbig⟩
    obtain ⟨-, -, rfl, -⟩ := h.unique h'
    exact hbig
  · intro hbig
    exact ⟨_, _, _, _, h, hbig⟩

/-- A number is a port if it is plain and passes. -/
theorem isPort_iff_of_number (hfits : decimal digits < 2 ^ 64) (port : UInt16) :
    IsPort allowZero text port ↔
      (blanks = [] ∧ sign = []) ∧ (rest = [] ∧ Passes allowZero (signed sign (decimal digits))) ∧
        (signed sign (decimal digits)).toUInt16 = port := by
  constructor
  · intro hport
    obtain ⟨rfl, rfl, rfl, rfl⟩ := h.unique hport.isNumber
    obtain ⟨hpasses, hvalue⟩ := (isPort_iff allowZero hport.ne_nil hport.isDigit hfits).mp hport
    exact ⟨⟨rfl, rfl⟩, ⟨rfl, hpasses⟩, hvalue⟩
  · rintro ⟨⟨rfl, rfl⟩, ⟨rfl, hpasses⟩, hvalue⟩
    obtain rfl : text = digits := by simpa using h.text_eq
    exact (isPort_iff allowZero h.digits_ne_nil h.digits_isDigit hfits).mpr ⟨hpasses, hvalue⟩

end Number

/-- The rule is met unless a number has blanks or a sign and passes, or does not fit. -/
theorem meetsPortRule_iff : MeetsPortRule (parsePortText empty invalid allowZero) allowZero text ↔
    ¬ Decorated allowZero text ∧ ¬ TooLarge text := by
  rcases strtoul_cases text with hnothing | ⟨blanks, sign, digits, rest, h⟩
  · -- There is no number at all.
    obtain ⟨what, hwhat⟩ := parsePortText_of_nothing empty invalid allowZero hnothing
    refine iff_of_true ⟨fun port => ?_, fun e he => ?_⟩ ⟨?_, ?_⟩
    · rw [hwhat]
      exact iff_of_false (by simp) fun hport => hport.isNumber.strtoul_ne_nothing hnothing
    · exact ⟨what, (Except.error.inj (hwhat.symm.trans he)).symm⟩
    · rintro ⟨_, _, _, h, -⟩
      exact h.strtoul_ne_nothing hnothing
    · rintro ⟨_, _, _, _, h, -⟩
      exact h.strtoul_ne_nothing hnothing
  have hparse := parsePortText_of_number empty invalid allowZero h
  rw [decorated_iff allowZero h, tooLarge_iff h]
  by_cases hbig : 2 ^ 64 ≤ decimal digits
  · rw [if_pos hbig] at hparse
    refine iff_of_false (fun hrule => ?_) fun hc => hc.2 hbig
    obtain ⟨what, hwhat⟩ := hrule.throws _ hparse
    cases hwhat
  rw [if_neg hbig] at hparse
  have hport := isPort_iff_of_number allowZero h (Nat.not_le.mp hbig)
  by_cases haccept : rest = [] ∧ Passes allowZero (signed sign (decimal digits))
  · rw [if_pos haccept] at hparse
    by_cases hplain : blanks = [] ∧ sign = []
    · refine iff_of_true ⟨fun port => ?_, fun e he => ?_⟩ ⟨fun hd => ?_, hbig⟩
      · rw [hparse, hport, and_iff_right hplain, and_iff_right haccept, Except.ok.injEq]
      · cases hparse.symm.trans he
      · exact not_and_or.mpr hd.2.1 hplain
    · -- The number is accepted although it is not plain.
      refine iff_of_false (fun hrule => ?_) fun hc => hc.1
        ⟨haccept.1, not_and_or.mp hplain, Nat.not_le.mp hbig, haccept.2⟩
      exact hplain ((hport _).mp ((hrule.accepts _).mp hparse)).1
  · rw [if_neg haccept] at hparse
    refine iff_of_true ⟨fun port => ?_, fun e he => ?_⟩ ⟨fun hd => ?_, hbig⟩
    · rw [hparse, hport]
      exact iff_of_false (by simp) fun hp => haccept hp.2.1
    · exact ⟨_, (Except.error.inj (hparse.symm.trans he)).symm⟩
    · exact haccept ⟨hd.1, hd.2.2.2⟩

/-- Only the texts of exceptions differ. -/
theorem alike_parsePortText (empty' invalid' : String) (text : List UInt8) :
    Alike (parsePortText empty invalid allowZero text)
      (parsePortText empty' invalid' allowZero text) := by
  rcases strtoul_cases text with hnothing | ⟨blanks, sign, digits, rest, h⟩
  · obtain ⟨what, hwhat⟩ := parsePortText_of_nothing empty invalid allowZero hnothing
    obtain ⟨what', hwhat'⟩ := parsePortText_of_nothing empty' invalid' allowZero hnothing
    rw [hwhat, hwhat']
    trivial
  · rw [parsePortText_of_number empty invalid allowZero h,
      parsePortText_of_number empty' invalid' allowZero h]
    split_ifs
    · rfl
    · rfl
    · trivial

end Rule

/-- **Port arguments**: each of the four parsers accepts just the texts of digits that spell a port,
and throws `std::invalid_argument` for any other, unless the text is a number with blanks or a sign
whose value passes, or it begins with a number of more than 64 bits. They agree with each other on
every text. -/
theorem ports_parsed_iff (text : List UInt8) :
    (MeetsPortRule Cli.parsePort false text ↔ ¬ Decorated false text ∧ ¬ TooLarge text) ∧
    (MeetsPortRule parseSshPort false text ↔ ¬ Decorated false text ∧ ¬ TooLarge text) ∧
    (∀ allowZero, MeetsPortRule (parseForwardPort · allowZero) allowZero text ↔
      ¬ Decorated allowZero text ∧ ¬ TooLarge text) ∧
    (∀ allowZero, MeetsPortRule (Socks.parsePort · allowZero) allowZero text ↔
      ¬ Decorated allowZero text ∧ ¬ TooLarge text) ∧
    Alike (Cli.parsePort text) (parseSshPort text) ∧
    Alike (parseSshPort text) (parseForwardPort text) ∧
    ∀ allowZero, Alike (parseForwardPort text allowZero) (Socks.parsePort text allowZero) :=
  ⟨meetsPortRule_iff _ _ _, meetsPortRule_iff _ _ _, fun _ => meetsPortRule_iff _ _ _,
    fun _ => meetsPortRule_iff _ _ _, alike_parsePortText _ _ _ _ _ _,
    alike_parsePortText _ _ _ _ _ _, fun _ => alike_parsePortText _ _ _ _ _ _⟩

/-- Ports with a blank and with signs, and a number that does not fit. -/
theorem ports_decorated :
    (Cli.parsePort (ascii " 22") = .ok 22 ∧ ¬ IsPort false (ascii " 22") 22) ∧
    (parseSshPort (ascii "+22") = .ok 22 ∧ ¬ IsPort false (ascii "+22") 22) ∧
    (parseForwardPort (ascii "-18446744073709551594") = .ok 22 ∧
      ¬ IsPort false (ascii "-18446744073709551594") 22) ∧
    Socks.parsePort (ascii "18446744073709551616") true = .error (.outOfRange "stoul") :=
  ⟨⟨by decide +kernel, fun h => absurd h.isDigit (by decide)⟩,
    ⟨by decide +kernel, fun h => absurd h.isDigit (by decide)⟩,
    ⟨by decide +kernel, fun h => absurd h.isDigit (by decide)⟩, by decide +kernel⟩

end Tailcat
