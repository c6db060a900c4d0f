import Mathlib.Tactic.Common
import Mathlib.Algebra.Order.Ring.Int
import Mathlib.Tactic.NormNum

set_option autoImplicit false

/-!
# Client certificates of the sensing API

`ApiServer.Plugs.Authenticate`. The date library and `:public_key` are parameters.
-/

namespace VirtueSensing.Api

inductive CertTime where
  | utcTime (text : String)
  | generalizedTime (text : String)
  deriving DecidableEq, Repr

def readPairs : List Char → Option (List Nat)
  | ['Z'] => some []
  | tens :: units :: rest =>
    if tens.isDigit ∧ units.isDigit then
      (readPairs rest).map (((tens.toNat - 48) * 10 + (units.toNat - 48)) :: ·)
    else none
  | _ => none

def isLeap (year : Nat) : Bool :=
  year % 4 = 0 ∧ (year % 100 ≠ 0 ∨ year % 400 = 0)

def daysInMonths (year : Nat) : List Nat :=
  [31, if isLeap year then 29 else 28, 31, 30, 31, 30, 31, 31, 30, 31, 30, 31]

-- Microseconds from the first day of the year 1 in the Gregorian calendar.
def calendarInstant (year month day hour minute second : Nat) : Int :=
  let elapsed := year - 1
  let days := 365 * elapsed + elapsed / 4 - elapsed / 100 + elapsed / 400 +
    ((daysInMonths year).take (month - 1)).sum + (day - 1)
  ((((days * 24 + hour) * 60 + minute) * 60 + second) * 1000000 : Nat)

def ValidDate (year month day hour minute second : Nat) : Prop :=
  1 ≤ year ∧ 1 ≤ month ∧ month ≤ 12 ∧ 1 ≤ day ∧ day ≤ (daysInMonths year).getD (month - 1) 0 ∧
    hour < 24 ∧ minute < 60 ∧ second < 60

instance (year month day hour minute second : Nat) :
    Decidable (ValidDate year month day hour minute second) :=
  inferInstanceAs (Decidable (_ ∧ _))

def dateInstant (year month day hour minute second : Nat) : Option Int :=
  if ValidDate year month day hour minute second then
    some (calendarInstant year month day hour minute second)
  else none

-- RFC 5280: from 50 on the two digits of a UTCTime are a year 19YY, below 50 one 20YY.
def fullYear (yy : Nat) : Nat := if 50 ≤ yy then 1900 + yy else 2000 + yy

def utcFields (text : String) : Option (List Nat) := readPairs text.toList

def CertTime.instant : CertTime → Option Int
  | .utcTime text =>
    match utcFields text with
    | some [yy, month, day, hour, minute, second] =>
      dateInstant (fullYear yy) month day hour minute second
    | _ => none
  | .generalizedTime text =>
    match readPairs text.toList with
    | some [century, yy, month, day, hour, minute, second] =>
      dateInstant (100 * century + yy) month day hour minute second
    | _ => none

-- A well-formed UTCTime of the years 2000 to 2049.
def CertTime.Recent : CertTime → Prop
  | .utcTime text => (CertTime.utcTime text).instant.isSome ∧
      ∃ yy fields, utcFields text = some (yy :: fields) ∧ yy < 50
  | .generalizedTime _ => False

def InThisCentury (now : Int) : Prop :=
  calendarInstant 2000 1 1 0 0 0 ≤ now ∧ now < calendarInstant 2100 1 1 0 0 0

inductive PublicKey where
  | rsa (modulus exponent : Int)
  | other
  deriving DecidableEq, Repr

-- The parts of an `OTPCertificate` that the plug looks at.
structure Certificate where
  version : Nat
  notBefore : CertTime
  notAfter : CertTime
  publicKey : PublicKey
  issuerUniqueId : Option String
  subjectUniqueId : Option String
  deriving DecidableEq, Repr

inductive CertDate where
  | dateTime (instant : Int)
  | notImplemented
  deriving DecidableEq, Repr

-- The answer of `Timex.before?` and `Timex.after?`: a boolean or an error tuple.
inductive Answer where
  | bool (b : Bool)
  | error
  deriving DecidableEq, Repr

-- Everything but `false` and `nil` counts as true in a `cond`.
def Answer.truthy : Answer → Bool
  | .bool b => b
  | .error => true

inductive Payload where
  | errorAtom
  | badCert (reason : String)
  | value (v : String)
  deriving DecidableEq, Repr

inductive PathResult where
  | ok (payload : Payload)
  | error (payload : Payload)
  deriving DecidableEq, Repr

def PathResult.elem1 : PathResult → Payload
  | .ok payload | .error payload => payload

/-- The clock, the libraries and the configured certificate authority. Which century `%y` means is
left open but for the years from 2000 to 2049, read in this century. -/
structure Services where
  now : Int
  parseUtcTime : String → Option Int
  parseUtcTime_recent : InThisCentury now → ∀ text read, (CertTime.utcTime text).Recent →
    parseUtcTime text = some read → (CertTime.utcTime text).instant = some read
  before : Int → CertDate → Answer
  after : Int → CertDate → Answer
  before_dateTime : ∀ now instant, before now (.dateTime instant) = .bool (now < instant)
  after_dateTime : ∀ now instant, after now (.dateTime instant) = .bool (instant < now)
  before_notImplemented : ∀ now, before now .notImplemented = .error
  after_notImplemented : ∀ now, after now .notImplemented = .error
  isSelfSigned : Certificate → Bool
  pathValidation : Certificate → Certificate → PathResult
  loadCaCertificate : Option Certificate

structure Conn where
  commonName : Option String
  certificate : Option Certificate
  deriving DecidableEq, Repr

inductive Result where
  | continues
  | halted (status : Nat) (msg : String)
  | raised
  deriving DecidableEq, Repr

-- `Integer.to_string(n, 16)`.
def toStringHex (n : Int) : List Char :=
  if n < 0 then '-' :: Nat.toDigits 16 n.natAbs else Nat.toDigits 16 n.natAbs

def keySizeFromModulus (modulus : Int) : Nat :=
  (toStringHex modulus).length * 4

def certTimeToDateTime (svc : Services) : CertTime → Option CertDate
  | .utcTime text => (svc.parseUtcTime text).map .dateTime
  | .generalizedTime _ => some .notImplemented

def Certificate.matches (cert : Certificate) : Option Int :=
  match cert.version, cert.publicKey, cert.issuerUniqueId, cert.subjectUniqueId with
  | 3, .rsa modulus _, none, none => some modulus
  | _, _, _, _ => none

def evaluate (svc : Services) (cert ca : Certificate) (modulus : Int) (notBefore notAfter : CertDate) :
    Result :=
  if (svc.before svc.now notBefore).truthy then
    .halted 495 "Certificate isn't yet valid (not_before)"
  else if (svc.after svc.now notAfter).truthy then
    .halted 495 "Certificate is not longer valid (not_after)"
  else if svc.isSelfSigned cert then
    .halted 495 "Certificate is not valid (self signed certificate)"
  else if (svc.pathValidation ca cert).elem1 = .errorAtom then
    match svc.pathValidation ca cert with
    | .error (.badCert reason) =>
      .halted 495 ("Certificate validation raised an error (" ++ reason ++ ")")
    | _ => .raised
  else if keySizeFromModulus modulus < 4096 then .halted 495 "Certificate key too small"
  else .continues

def call (svc : Services) (conn : Conn) : Result :=
  match conn.commonName, conn.certificate with
  | some _, some cert =>
    match cert.matches, certTimeToDateTime svc cert.notBefore, certTimeToDateTime svc cert.notAfter,
      svc.loadCaCertificate with
    | some modulus, some notBefore, some notAfter, some ca =>
      evaluate svc cert ca modulus notBefore notAfter
    | _, _, _, _ => .raised
  | _, _ => .halted 496 "Client certificate required"

def WithinValidity (now : Int) (cert : Certificate) : Prop :=
  ∃ notBefore notAfter, cert.notBefore.instant = some notBefore ∧
    cert.notAfter.instant = some notAfter ∧ notBefore ≤ now ∧ now ≤ notAfter

-- The same for the dates as the plug reads them.
def DatesPass (svc : Services) (cert : Certificate) : Prop :=
  ∃ notBefore notAfter, certTimeToDateTime svc cert.notBefore = some (.dateTime notBefore) ∧
    certTimeToDateTime svc cert.notAfter = some (.dateTime notAfter) ∧
    notBefore ≤ svc.now ∧ svc.now ≤ notAfter

def RecentDates (now : Int) (cert : Certificate) : Prop :=
  InThisCentury now ∧ cert.notBefore.Recent ∧ cert.notAfter.Recent

def PathValid (svc : Services) (cert : Certificate) : Prop :=
  ∃ ca payload, svc.loadCaCertificate = some ca ∧ svc.pathValidation ca cert = .ok payload

/-- The certificate is one that the plug is there to let in. -/
structure Trusted (svc : Services) (cert : Certificate) : Prop where
  validity : WithinValidity svc.now cert
  signed : svc.isSelfSigned cert = false
  path : PathValid svc cert
  strength : ∃ modulus exponent, cert.publicKey = .rsa modulus exponent ∧ 2 ^ 4095 ≤ modulus

-- The certificate passes every check but those of the path and of the key.
structure PassesOthers (svc : Services) (conn : Conn) (cert : Certificate) (modulus : Int) : Prop where
  named : conn.commonName ≠ none
  given : conn.certificate = some cert
  shape : cert.matches = some modulus
  dates : DatesPass svc cert
  signed : svc.isSelfSigned cert = false
  authority : ∃ ca, svc.loadCaCertificate = some ca ∧ (svc.pathValidation ca cert).elem1 ≠ .errorAtom

theorem toDigits_short_iff (n k : Nat) (positive : 0 < k) :
    (Nat.toDigits 16 n).length ≤ k ↔ n < 2 ^ (4 * k) := by
  rw [Nat.length_toDigits_le_iff (by decide) positive, Nat.pow_mul]

theorem length_toStringHex_natCast (n : Nat) : (toStringHex n).length = (Nat.toDigits 16 n).length := by
  simp [toStringHex, Int.not_lt.mpr (Int.natCast_nonneg n)]

theorem length_toStringHex_negSucc (n : Nat) :
    (toStringHex (.negSucc n)).length = (Nat.toDigits 16 (n + 1)).length + 1 := by
  simp [toStringHex, Int.negSucc_lt_zero]

theorem natCast_lt_two_pow (n k : Nat) : (n : Int) < 2 ^ k ↔ n < 2 ^ k := by
  exact_mod_cast Iff.rfl

theorem neg_two_pow_lt_negSucc (n k : Nat) : -2 ^ k < Int.negSucc n ↔ n + 1 < 2 ^ k := by
  rw [Int.negSucc_eq, neg_lt_neg_iff]
  exact_mod_cast Iff.rfl

-- The key counts as too small below 4093 bits, not below 4096.
theorem keySize_small_iff (modulus : Int) :
    keySizeFromModulus modulus < 4096 ↔ -2 ^ 4088 < modulus ∧ modulus < 2 ^ 4092 := by
  unfold keySizeFromModulus
  cases modulus with
  | ofNat n =>
    have short := toDigits_short_iff n 1023 (by decide)
    have below : (-2 ^ 4088 : Int) < n :=
      lt_of_lt_of_le (neg_lt_zero.mpr (by positivity)) (Int.natCast_nonneg n)
    rw [Int.ofNat_eq_natCast, length_toStringHex_natCast, natCast_lt_two_pow n 4092, ← short]
    exact ⟨fun small => ⟨below, by omega⟩, fun small => by omega⟩
  | negSucc n =>
    have short := toDigits_short_iff (n + 1) 1022 (by decide)
    have above : Int.negSucc n < 2 ^ 4092 := lt_trans (Int.negSucc_lt_zero n) (by positivity)
    rw [length_toStringHex_negSucc, neg_two_pow_lt_negSucc n 4088, ← short]
    exact ⟨fun small => ⟨by omega, above⟩, fun small => by omega⟩

section Dates

variable {svc : Services} {cert : Certificate} {notBefore notAfter : CertDate}

theorem before_passes_iff :
    (svc.before svc.now notBefore).truthy = false ↔
      ∃ instant, notBefore = .dateTime instant ∧ instant ≤ svc.now := by
  cases notBefore with
  | dateTime instant => simp [svc.before_dateTime, Answer.truthy]
  | notImplemented => simp [svc.before_notImplemented, Answer.truthy]

theorem after_passes_iff :
    (svc.after svc.now notAfter).truthy = false ↔
      ∃ instant, notAfter = .dateTime instant ∧ svc.now ≤ instant := by
  cases notAfter with
  | dateTime instant => simp [svc.after_dateTime, Answer.truthy]
  | notImplemented => simp [svc.after_notImplemented, Answer.truthy]

theorem instant_eq_of_recent {time : CertTime} {read : Int} (century : InThisCentury svc.now)
    (recent : time.Recent) (reads : certTimeToDateTime svc time = some (.dateTime read)) :
    time.instant = some read := by
  cases time with
  | utcTime text =>
    obtain ⟨read', parsed, same⟩ := Option.map_eq_some_iff.mp reads
    obtain rfl := CertDate.dateTime.inj same
    exact svc.parseUtcTime_recent century text read' recent parsed
  | generalizedTime text => exact recent.elim

theorem within_of_datesPass (recent : RecentDates svc.now cert) (passes : DatesPass svc cert) :
    WithinValidity svc.now cert := by
  obtain ⟨century, recentBefore, recentAfter⟩ := recent
  obtain ⟨first, last, nb, na, begun, lasts⟩ := passes
  exact ⟨first, last, instant_eq_of_recent century recentBefore nb,
    instant_eq_of_recent century recentAfter na, begun, lasts⟩

end Dates

theorem evaluate_continues_iff (svc : Services) (cert ca : Certificate) (modulus : Int)
    (notBefore notAfter : CertDate) :
    evaluate svc cert ca modulus notBefore notAfter = .continues ↔
      (svc.before svc.now notBefore).truthy = false ∧ (svc.after svc.now notAfter).truthy = false ∧
      svc.isSelfSigned cert = false ∧ (svc.pathValidation ca cert).elem1 ≠ .errorAtom ∧
      ¬ keySizeFromModulus modulus < 4096 := by
  unfold evaluate
  split_ifs with early late selfSigned path small
  · simp [early]
  · simp [late]
  · simp [selfSigned]
  · simp only [path, ne_eq, not_true_eq_false, false_and, and_false, iff_false]
    split <;> simp
  · simp [small]
  · simp_all

theorem call_continues_iff (svc : Services) (conn : Conn) :
    call svc conn = .continues ↔
      ∃ cert modulus, PassesOthers svc conn cert modulus ∧ ¬ keySizeFromModulus modulus < 4096 := by
  constructor
  · intro continues
    unfold call at continues
    split at continues
    · next name cert named given =>
      split at continues
      · next modulus notBefore notAfter ca shape nb na authority =>
        obtain ⟨early, late, signed, path, large⟩ := (evaluate_continues_iff ..).mp continues
        obtain ⟨first, rfl, begun⟩ := before_passes_iff.mp early
        obtain ⟨last, rfl, lasts⟩ := after_passes_iff.mp late
        exact ⟨cert, modulus, ⟨by simp [named], given, shape, ⟨first, last, nb, na, begun, lasts⟩,
          signed, ca, authority, path⟩, large⟩
      · simp at continues
    · simp at continues
  · rintro ⟨cert, modulus, passes, large⟩
    obtain ⟨named, given, shape, ⟨first, last, nb, na, begun, lasts⟩, signed, ca, authority, path⟩ :=
      passes
    obtain ⟨name, named⟩ := Option.ne_none_iff_exists'.mp named
    unfold call
    simp only [named, given, shape, nb, na, authority]
    rw [evaluate_continues_iff]
    exact ⟨before_passes_iff.mpr ⟨first, rfl, begun⟩, after_passes_iff.mpr ⟨last, rfl, lasts⟩, signed,
      path, large⟩

theorem Certificate.matches_eq_some {cert : Certificate} {modulus : Int}
    (shape : cert.matches = some modulus) : ∃ exponent, cert.publicKey = .rsa modulus exponent := by
  unfold Certificate.matches at shape
  split at shape
  · next modulus' exponent _ key _ _ =>
    obtain rfl := Option.some.inj shape
    exact ⟨exponent, key⟩
  · simp at shape

/-- The plug lets in trusted certificates only, exactly for the connections that another check stops,
whose key is below 4093 bits, or whose path is valid, whose key has 4096 bits and whose dates are of
this century or else still in their period. -/
theorem admits_trusted_iff (svc : Services) (conn : Conn) :
    (call svc conn = .continues → ∃ cert, conn.certificate = some cert ∧ Trusted svc cert) ↔
      ∀ cert modulus, PassesOthers svc conn cert modulus →
        (-2 ^ 4088 < modulus ∧ modulus < 2 ^ 4092) ∨
        (PathValid svc cert ∧ 2 ^ 4095 ≤ modulus ∧
          (RecentDates svc.now cert ∨ WithinValidity svc.now cert)) := by
  rw [call_continues_iff]
  constructor
  · intro admits cert modulus passes
    by_cases small : keySizeFromModulus modulus < 4096
    · exact .inl ((keySize_small_iff modulus).mp small)
    · obtain ⟨cert', given, trusted⟩ := admits ⟨cert, modulus, passes, small⟩
      obtain rfl := Option.some.inj (passes.given.symm.trans given)
      obtain ⟨exponent, key⟩ := Certificate.matches_eq_some passes.shape
      obtain ⟨modulus', exponent', key', strong⟩ := trusted.strength
      obtain ⟨rfl, -⟩ := PublicKey.rsa.inj (key.symm.trans key')
      exact .inr ⟨trusted.path, strong, .inr trusted.validity⟩
  · rintro condition ⟨cert, modulus, passes, large⟩
    rcases condition cert modulus passes with small | ⟨path, strong, dates⟩
    · exact absurd ((keySize_small_iff modulus).mpr small) large
    · obtain ⟨exponent, key⟩ := Certificate.matches_eq_some passes.shape
      have validity : WithinValidity svc.now cert :=
        dates.elim (fun recent => within_of_datesPass recent passes.dates) id
      exact ⟨cert, passes.given, validity, passes.signed, path, modulus, exponent, key, strong⟩

def rsaCertificate (modulus : Int) : Certificate :=
  ⟨3, .utcTime "180101000000Z", .utcTime "190101000000Z", .rsa modulus 65537, none, none⟩

-- A parser that takes `%y` for a year of this century.
def parseInThisCentury (text : String) : Option Int :=
  match utcFields text with
  | some [yy, month, day, hour, minute, second] =>
    dateInstant (2000 + yy) month day hour minute second
  | _ => none

theorem parseInThisCentury_recent {text : String} {read : Int}
    (recent : (CertTime.utcTime text).Recent) (parsed : parseInThisCentury text = some read) :
    (CertTime.utcTime text).instant = some read := by
  obtain ⟨-, yy, fields, first, below⟩ := recent
  have year : fullYear yy = 2000 + yy := if_neg (by omega)
  unfold parseInThisCentury at parsed
  simp only [CertTime.instant]
  rw [first] at parsed ⊢
  split at parsed
  · next yy' month day hour minute second same =>
    obtain ⟨rfl, rfl⟩ := List.cons.inj (Option.some.inj same)
    simpa only [year] using parsed
  · simp at parsed

def servicesWith (path : PathResult) : Services where
  now := calendarInstant 2018 6 1 12 0 0
  parseUtcTime := parseInThisCentury
  parseUtcTime_recent := fun _ _ _ recent parsed => parseInThisCentury_recent recent parsed
  before := fun now date =>
    match date with
    | .dateTime t => .bool (now < t)
    | .notImplemented => .error
  after := fun now date =>
    match date with
    | .dateTime t => .bool (t < now)
    | .notImplemented => .error
  before_dateTime := fun _ _ => rfl
  after_dateTime := fun _ _ => rfl
  before_notImplemented := fun _ => rfl
  after_notImplemented := fun _ => rfl
  isSelfSigned := fun _ => false
  pathValidation := fun _ _ => path
  loadCaCertificate := some (rsaCertificate (2 ^ 4095))

theorem datesPass_rsaCertificate (path : PathResult) (modulus : Int) :
    DatesPass (servicesWith path) (rsaCertificate modulus) :=
  have notBefore : parseInThisCentury "180101000000Z" = some (calendarInstant 2018 1 1 0 0 0) := by
    decide
  have notAfter : parseInThisCentury "190101000000Z" = some (calendarInstant 2019 1 1 0 0 0) := by
    decide
  ⟨_, _, congrArg (Option.map CertDate.dateTime) notBefore,
    congrArg (Option.map CertDate.dateTime) notAfter,
    show calendarInstant 2018 1 1 0 0 0 ≤ calendarInstant 2018 6 1 12 0 0 by decide,
    show calendarInstant 2018 6 1 12 0 0 ≤ calendarInstant 2019 1 1 0 0 0 by decide⟩

theorem call_servicesWith {path : PathResult} (tuple : path.elem1 ≠ .errorAtom) {modulus : Int}
    (large : 2 ^ 4092 ≤ modulus) :
    call (servicesWith path) ⟨some "client", some (rsaCertificate modulus)⟩ = .continues := by
  rw [call_continues_iff]
  refine ⟨rsaCertificate modulus, modulus, ⟨by simp, rfl, rfl, datesPass_rsaCertificate path modulus,
    rfl, _, rfl, tuple⟩, fun small => ?_⟩
  exact absurd ((keySize_small_iff modulus).mp small).2 (not_lt.mpr large)

theorem untrusted_certificates_admitted :
    (call (servicesWith (.error (.badCert "invalid_issuer")))
        ⟨some "client", some (rsaCertificate (2 ^ 4095))⟩ = .continues ∧
      ¬ Trusted (servicesWith (.error (.badCert "invalid_issuer"))) (rsaCertificate (2 ^ 4095))) ∧
    (call (servicesWith (.ok (.value "public_key_info")))
        ⟨some "client", some (rsaCertificate (2 ^ 4092))⟩ = .continues ∧
      ¬ Trusted (servicesWith (.ok (.value "public_key_info"))) (rsaCertificate (2 ^ 4092))) := by
  have stronger : (2 : Int) ^ 4092 < 2 ^ 4095 := pow_lt_pow_right₀ (by decide) (by decide)
  refine ⟨⟨call_servicesWith (by decide) stronger.le, fun trusted => ?_⟩,
    ⟨call_servicesWith (by decide) le_rfl, fun trusted => ?_⟩⟩
  · obtain ⟨ca, payload, -, valid⟩ := trusted.path
    exact PathResult.noConfusion valid
  · obtain ⟨modulus, exponent, key, strong⟩ := trusted.strength
    obtain ⟨rfl, -⟩ := PublicKey.rsa.inj key
    exact absurd strong (not_le.mpr stronger)

end VirtueSensing.Api
