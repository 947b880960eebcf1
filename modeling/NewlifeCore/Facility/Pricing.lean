import NewlifeCore.Facility.Repositories
import NewlifeCore.Precision

/-!
# Prices

`pricing_service.py`, `discount_eligibility_service.py` and the rate selection of
`rental_repository.py`.  A quote reads rates, discount rules and surcharges; it writes nothing.

Amounts are `Decimal`s of Python's default context.  A `Decimal` that is read or parsed is exact,
however long; what an operation returns has 28 digits, the rest rounded to the even last digit
(`Decimal.fit`), and a result past the largest exponent is an exception (`Decimal.result`).
`quantize` to the cent raises as well once the cents no longer fit into 28 digits.  The hours of a
request are not bounded, so both happen on requests that the service accepts.
-/

namespace NewlifeCore

open Txn Prog

/-! ## 1. Rounding -/

/-- The default context of `decimal`. -/
def decimalContext : Precision where
  digits := 28
  etiny := -1000026
  digits_pos := by decide

/-- What an operation returns of its exact result. -/
def Decimal.fit (exact : Decimal) : Decimal := decimalContext.fit exact

def decimalSignal (detail : String) : ApiError := ⟨.arithmeticError, detail, none, []⟩

/-- An operation whose result is past the largest exponent raises. -/
def Decimal.result (exact : Decimal) : Except ApiError Decimal :=
  if 999999 < Int.log 10 |Decimal.fit exact| then .error (decimalSignal "Overflow")
  else .ok (Decimal.fit exact)

/-- `sum(values, Decimal("0"))`. -/
def Decimal.sum (values : List Decimal) : Except ApiError Decimal :=
  values.foldlM (fun sum value => Decimal.result (sum + value)) 0

/-- The nearest hundredth, halves away from zero. -/
def roundMoney (amount : Decimal) : Decimal :=
  if amount < 0 then -((-amount * 100 + 1 / 2).floor / 100) else (amount * 100 + 1 / 2).floor / 100

/-- `quantize(Decimal("0.01"), rounding=ROUND_HALF_UP)`: the cents have at most 28 digits. -/
def quantizeMoney (amount : Decimal) : Except ApiError Decimal :=
  if |roundMoney amount| < 10 ^ 26 then .ok (roundMoney amount)
  else .error (decimalSignal "InvalidOperation")

/-- `_billed_hours`: the length of an interval in hours, to the hundredth. -/
def billedHours (startAt endAt : Int) : Decimal :=
  (roundHalfEven (Decimal.fit (((endAt - startAt : Int) : Decimal) / hourMicros) * 100) : Decimal) /
    100

example : billedHours 0 (90 * minuteMicros) = 3 / 2 := by decide +kernel

/-- What an operation returns is its exact result fitted. -/
theorem Decimal.result_eq {exact x : Decimal} (h : Decimal.result exact = .ok x) :
    x = Decimal.fit exact := by
  unfold Decimal.result at h
  split_ifs at h
  exact (Except.ok.inj h).symm

theorem Decimal.sum_eq {values : List Decimal} {x : Decimal} (h : Decimal.sum values = .ok x) :
    x = values.foldl (fun sum value => Decimal.fit (sum + value)) 0 := by
  unfold Decimal.sum at h
  generalize (0 : Decimal) = start at h ⊢
  induction values generalizing start with
  | nil => exact (Except.ok.inj h).symm
  | cons value values ih =>
    rw [List.foldlM_cons] at h
    cases hadd : Decimal.result (start + value) with
    | error e =>
      rw [hadd] at h
      cases h
    | ok sum =>
      rw [hadd] at h
      rw [List.foldl_cons, ← Decimal.result_eq hadd]
      exact ih sum h

theorem quantizeMoney_ok_iff {amount x : Decimal} :
    quantizeMoney amount = .ok x ↔ |roundMoney amount| < 10 ^ 26 ∧ roundMoney amount = x := by
  unfold quantizeMoney
  split_ifs with h
  · exact ⟨fun hx => ⟨h, Except.ok.inj hx⟩, fun hx => congrArg Except.ok hx.2⟩
  · constructor
    · intro hx
      cases hx
    · exact fun hx => absurd hx.1 h

/-! ## 2. Rates -/

mutual

/-- `_eval_node`. -/
def RuleNode.eval (hours : Decimal) : RuleNode → Bool
  | .hoursGte value => hours ≥ value
  | .hoursLt value => hours < value
  | .hoursRange min max maxExclusive =>
    if hours < min then false
    else if maxExclusive then hours < max
    else hours ≤ max
  | .all children => RuleNode.evalAll hours children
  | .any children => RuleNode.evalAny hours children
  | .not child => !child.eval hours

def RuleNode.evalAll (hours : Decimal) : List RuleNode → Bool
  | [] => true
  | c :: cs => c.eval hours && RuleNode.evalAll hours cs

def RuleNode.evalAny (hours : Decimal) : List RuleNode → Bool
  | [] => false
  | c :: cs => c.eval hours || RuleNode.evalAny hours cs

end

/-- No rule always applies. -/
def matchesApplicability (rule : Option RuleNode) (hours : Decimal) : Bool :=
  rule.all (RuleNode.eval hours)

/-- `RentalRateResult`: a room's rate with its template's columns, or a template standing alone. -/
structure RentalRate where
  isActive : Bool
  unitAmount : Decimal
  currency : String
  templateName : String
  billingUnit : String
  applicability : Option RuleNode
  isDefault : Bool

namespace RentalRepository

def toRate (isActive : Bool) (t : FacilityRentalRateTemplate) : RentalRate :=
  ⟨isActive, t.unitAmount, t.currency, t.name, t.billingUnit, t.applicability, t.isDefault⟩

/-- The date is ignored: a room's rates are its active bindings to active templates. -/
def listActiveRatesForFacility (facilityId : UUID) (_asOfDate : Option Int) :
    Portal (List RentalRate) :=
  select fun db _ => (db.rates.filter fun r => !r.isDeleted && r.isActive &&
    r.facilityId = facilityId).flatMap fun r =>
      (db.rateTemplates.filter fun t => t.id = r.templateId && !t.isDeleted && t.isActive).map
        (toRate r.isActive)

def listTemplates : Portal (List RentalRate) :=
  select fun db _ => ((db.rateTemplates.filter fun t => !t.isDeleted && t.isActive).insertionSort
    fun a b => a.name ≤ b.name).map fun t => toRate t.isActive t

/-- Rules first, then the default, then the order of the list. -/
def rateRank (r : RentalRate) : Nat :=
  (if r.applicability.isSome then 0 else 2) + (if r.isDefault then 0 else 1)

def pickRateForLine (rates : List RentalRate) (hours : Decimal) (allowFirstActive : Bool) :
    Option RentalRate :=
  let eligible := rates.filter fun r => r.isActive && matchesApplicability r.applicability hours
  match eligible.insertionSort fun a b => rateRank a ≤ rateRank b with
  | chosen :: _ => some chosen
  | [] =>
    match rates.find? fun r => r.isDefault && r.isActive with
    | some rate => some rate
    | none => if allowFirstActive then rates.find? RentalRate.isActive else none

def listDiscountRules : Portal (List FacilityRentalDiscountRule) :=
  select fun db _ => (db.discountRules.filter fun r => !r.isDeleted).insertionSort
    fun a b => a.code ≤ b.code

def listSurcharges : Portal (List FacilityRentalSurcharge) :=
  select fun db _ => (db.surcharges.filter fun s => !s.isDeleted).insertionSort
    fun a b => a.code ≤ b.code

end RentalRepository

/-! ## 3. Discount eligibility -/

structure DiscountEligibility where
  discountCode : Option String := none
  discountPercent : Decimal := 0
  isFreeMinistry : Bool := false

namespace DiscountEligibilityService

def isQualifyingMinistryBooking (ministryId : Option UUID) (bookerId : UUID) : Portal Bool :=
  match ministryId with
  | none => pure false
  | some ministryId => do
    let status ← MinistryRepository.getStatus ministryId
    if status ≠ some .active then pure false
    else MinistryRepository.isUserBookingMember ministryId bookerId

def activeDiscountForCode (code : String) : Portal DiscountEligibility := do
  let rules ← RentalRepository.listDiscountRules
  match rules.find? fun r => r.code = code && r.isActive with
  | some rule => pure { discountCode := some rule.code, discountPercent := rule.percentOff }
  | none => pure {}

def evaluate (bookingType : BookingType) (ministryId : Option UUID) (bookerId : UUID) :
    Portal DiscountEligibility := do
  if ← isQualifyingMinistryBooking ministryId bookerId then pure { isFreeMinistry := true }
  else if bookingType = .recurring then activeDiscountForCode "recurring_weekly_monthly"
  else pure {}

end DiscountEligibilityService

/-! ## 4. Quotes -/

/-- `PreviewQuoteRoomLineCommand`. -/
structure QuoteLine where
  facilityId : UUID
  billedHours : Decimal
deriving DecidableEq

/-- `PreviewQuoteCommand`, its Booker given. -/
structure PreviewQuoteCommand where
  bookingType : BookingType
  currency : String := "CAD"
  asOfDate : Option Int := none
  roomLines : List QuoteLine := []
  surchargeCodes : List String := []
  ministryId : Option UUID := none
  bookerId : UUID

/-- `PreviewQuoteRoomLineResult`. -/
structure QuotedLine where
  facilityId : UUID
  billedHours : Decimal
  rentalRateName : Option String := none
  billingUnit : Option String := none
  unitAmount : Option Decimal := none
  currency : String := "CAD"
  applicability : Option RuleNode := none
  isDefault : Bool := false
  lineSubtotal : Decimal

/-- `PreviewQuoteResult`. -/
structure Quote where
  subtotalAmount : Decimal
  discountCode : Option String := none
  discountPercent : Decimal
  discountAmount : Decimal
  surchargeAmount : Decimal
  quotedAmount : Decimal
  currency : String
  isFreeMinistry : Bool := false
  roomLines : List QuotedLine := []

namespace PricingService

def resolveRateForRoom (facilityId : UUID) (hours : Decimal) (asOfDate : Option Int) :
    Portal (Option RentalRate) := do
  let roomRates ← RentalRepository.listActiveRatesForFacility facilityId asOfDate
  match RentalRepository.pickRateForLine roomRates hours false with
  | some rate => pure (some rate)
  | none => do
    let candidates ← RentalRepository.listTemplates
    pure (RentalRepository.pickRateForLine candidates hours true)

def computeLineSubtotal (billingUnit : String) (unitAmount hours : Decimal) :
    Except ApiError Decimal :=
  if billingUnit = "daily_flat" then .ok unitAmount
  else if billingUnit = "hourly" then Decimal.result (unitAmount * hours)
  else if billingUnit = "per_slot" then .ok unitAmount
  else if billingUnit = "flat_per_booking" then .ok unitAmount
  else Decimal.result (unitAmount * hours)

def surchargeCharge (s : FacilityRentalSurcharge) (hours : Decimal) : Except ApiError Decimal :=
  if s.chargeType = "per_hour" then Decimal.result (s.unitAmount * hours) else .ok s.unitAmount

/-- The total with the charge for each code in turn; the last active surcharge under a code
counts. -/
def surchargeTotal (surcharges : List FacilityRentalSurcharge) (hours : Decimal) (total : Decimal) :
    List String → Except ApiError Decimal
  | [] => .ok total
  | code :: codes =>
    match (surcharges.filter FacilityRentalSurcharge.isActive).reverse.find? fun s =>
        s.code = code with
    | none => .error (badRequest s!"Surcharge code {code} not found or inactive")
    | some s =>
      match (surchargeCharge s hours).bind fun charge => Decimal.result (total + charge) with
      | .error e => .error e
      | .ok total => surchargeTotal surcharges hours total codes

def computeSurcharges (command : PreviewQuoteCommand) : Portal Decimal :=
  if command.surchargeCodes.isEmpty then pure 0
  else do
    let surcharges ← RentalRepository.listSurcharges
    let hours ← ofExcept (Decimal.sum (command.roomLines.map QuoteLine.billedHours))
    ofExcept (surchargeTotal surcharges hours 0 command.surchargeCodes)

def freeMinistryQuote (command : PreviewQuoteCommand) : Quote where
  subtotalAmount := 0
  discountPercent := 0
  discountAmount := 0
  surchargeAmount := 0
  quotedAmount := 0
  currency := command.currency
  isFreeMinistry := true
  roomLines := command.roomLines.map fun line =>
    { facilityId := line.facilityId, billedHours := line.billedHours,
      currency := command.currency, lineSubtotal := 0 }

/-- Every line names a room and bills a positive time. -/
def checkLine (line : QuoteLine) : Portal Unit := do
  let known ← RoomRepository.existsById line.facilityId
  raiseIf (!known) (badRequest s!"Room {line.facilityId} not found")
  raiseIf (line.billedHours ≤ 0) (badRequest "billed_hours must be positive")

/-- A line's quote, with its subtotal before rounding. -/
def quoteLine (asOfDate : Option Int) (line : QuoteLine) : Portal (QuotedLine × Decimal) := do
  match ← resolveRateForRoom line.facilityId line.billedHours asOfDate with
  | none => raise (badRequest s!"No active rental rate for room {line.facilityId}")
  | some rate =>
    let billingUnit := if rate.billingUnit = "" then "hourly" else rate.billingUnit
    let subtotal ← ofExcept (computeLineSubtotal billingUnit rate.unitAmount line.billedHours)
    let lineSubtotal ← ofExcept (quantizeMoney subtotal)
    pure ({ facilityId := line.facilityId
            billedHours := line.billedHours
            rentalRateName := some rate.templateName
            billingUnit := some billingUnit
            unitAmount := some rate.unitAmount
            currency := if rate.currency = "" then "CAD" else rate.currency
            applicability := rate.applicability
            isDefault := rate.isDefault
            lineSubtotal }, subtotal)

/-- `discount_amount`. -/
def discountOf (subtotal percent : Decimal) : Except ApiError Decimal := do
  let product ← Decimal.result (subtotal * percent)
  let share ← Decimal.result (product / 100)
  quantizeMoney share

/-- `preview_quote` once the discount is known. -/
def pricedQuote (command : PreviewQuoteCommand) (eligibility : DiscountEligibility) :
    Portal Quote :=
  if eligibility.isFreeMinistry then pure (freeMinistryQuote command)
  else do
    let quoted ← mapEach command.roomLines (quoteLine command.asOfDate)
    let subtotal ← ofExcept (Decimal.sum (quoted.map Prod.snd))
    let discountAmount ← ofExcept (discountOf subtotal eligibility.discountPercent)
    let afterDiscount ← ofExcept (Decimal.result (subtotal - discountAmount))
    let surcharge ← computeSurcharges command
    let quotedExact ← ofExcept (Decimal.result (afterDiscount + surcharge))
    let subtotalAmount ← ofExcept (quantizeMoney subtotal)
    let surchargeAmount ← ofExcept (quantizeMoney surcharge)
    let quotedAmount ← ofExcept (quantizeMoney quotedExact)
    pure {
      subtotalAmount
      discountCode := eligibility.discountCode
      discountPercent := eligibility.discountPercent
      discountAmount
      surchargeAmount
      quotedAmount
      currency := command.currency
      roomLines := quoted.map Prod.fst }

def previewQuote (command : PreviewQuoteCommand) : Portal Quote := do
  raiseIf command.roomLines.isEmpty (badRequest "At least one room line is required")
  each command.roomLines checkLine
  let eligibility ← DiscountEligibilityService.evaluate command.bookingType command.ministryId
    command.bookerId
  pricedQuote command eligibility

/-! ### 4.1 A quote only reads -/

theorem resolveRateForRoom_readOnly (facilityId : UUID) (hours : Decimal) (asOf : Option Int) :
    ReadOnly (resolveRateForRoom facilityId hours asOf) := by
  refine ReadOnly.bind (fun rates => ?_) (ReadOnly.select _)
  split
  · trivial
  · exact ReadOnly.bind (fun _ => ReadOnly.ret _) (ReadOnly.select _)

theorem quoteLine_readOnly (asOf : Option Int) (line : QuoteLine) :
    ReadOnly (quoteLine asOf line) := by
  refine ReadOnly.bind (fun rate => ?_) (resolveRateForRoom_readOnly _ _ _)
  cases rate with
  | none => trivial
  | some rate => exact ReadOnly.bind (fun _ => ReadOnly.bind (fun _ => ReadOnly.ret _)
      (ReadOnly.ofExcept _)) (ReadOnly.ofExcept _)

theorem computeSurcharges_readOnly (command : PreviewQuoteCommand) :
    ReadOnly (computeSurcharges command) := by
  unfold computeSurcharges
  split
  · trivial
  · exact ReadOnly.bind (fun _ => ReadOnly.bind (fun _ => ReadOnly.ofExcept _)
      (ReadOnly.ofExcept _)) (ReadOnly.select _)

theorem checkLine_readOnly (line : QuoteLine) : ReadOnly (checkLine line) :=
  ReadOnly.bind (fun _ => ReadOnly.bind (fun _ => ReadOnly.raiseIf _ _) (ReadOnly.raiseIf _ _))
    (ReadOnly.select _)

theorem isQualifying_readOnly (ministryId : Option UUID) (bookerId : UUID) :
    ReadOnly (DiscountEligibilityService.isQualifyingMinistryBooking ministryId bookerId) := by
  cases ministryId with
  | none => trivial
  | some m =>
    refine ReadOnly.bind (fun status => ?_) (ReadOnly.select _)
    split
    · trivial
    · exact ReadOnly.select _

theorem evaluate_readOnly (bookingType : BookingType) (ministryId : Option UUID)
    (bookerId : UUID) :
    ReadOnly (DiscountEligibilityService.evaluate bookingType ministryId bookerId) := by
  refine ReadOnly.bind (fun qualifying => ?_) (isQualifying_readOnly _ _)
  split
  · trivial
  · split
    · refine ReadOnly.bind (fun rules => ?_) (ReadOnly.select _)
      split <;> trivial
    · trivial

theorem pricedQuote_readOnly (command : PreviewQuoteCommand) (eligibility : DiscountEligibility) :
    ReadOnly (pricedQuote command eligibility) := by
  unfold pricedQuote
  split
  · trivial
  · refine ReadOnly.bind (fun quoted => ?_) (ReadOnly.mapEach (quoteLine_readOnly _) _)
    refine ReadOnly.bind (fun subtotal => ?_) (ReadOnly.ofExcept _)
    refine ReadOnly.bind (fun discountAmount => ?_) (ReadOnly.ofExcept _)
    refine ReadOnly.bind (fun afterDiscount => ?_) (ReadOnly.ofExcept _)
    refine ReadOnly.bind (fun surcharge => ?_) (computeSurcharges_readOnly _)
    refine ReadOnly.bind (fun quotedExact => ?_) (ReadOnly.ofExcept _)
    refine ReadOnly.bind (fun subtotalAmount => ?_) (ReadOnly.ofExcept _)
    refine ReadOnly.bind (fun surchargeAmount => ?_) (ReadOnly.ofExcept _)
    exact ReadOnly.bind (fun _ => ReadOnly.ret _) (ReadOnly.ofExcept _)

@[simp] theorem previewQuote_readOnly (command : PreviewQuoteCommand) :
    ReadOnly (previewQuote command) := by
  refine ReadOnly.bind (fun _ => ReadOnly.bind (fun _ => ReadOnly.bind (fun eligibility => ?_)
    (evaluate_readOnly _ _ _)) (ReadOnly.each checkLine_readOnly _)) (ReadOnly.raiseIf _ _)
  exact pricedQuote_readOnly command eligibility

end PricingService

end NewlifeCore
