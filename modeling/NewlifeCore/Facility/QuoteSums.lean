import NewlifeCore.Facility.Calls
import NewlifeCore.Rounding

/-!
# When a quote adds up, and its bounds

`preview_quote` rounds each line, the subtotal, the discount, the surcharges and the total on their
own, the total from the unrounded subtotal and surcharges and the rounded discount.  The figures of
a quote are then sums of separately rounded amounts, and they agree or not by the errors.

`Charges` is what a quote is made of before any cent is rounded, and `previewQuote_prices` reads a
returned quote off its charges.  Two questions are asked of it.

* **Does it add up** (`previewQuote_addsUp_iff`)?  The rounded lines give the rounded subtotal, and
  the rounded subtotal less the discount plus the rounded surcharges gives the rounded total,
  exactly when the errors stay within the half cent that rounding the sum leaves (`AbsorbsError`).
* **Does it keep its bounds** (`previewQuote_bounded_iff`)?  The discount always does.  The total
  falls below zero only where a subtotal that ends on half a cent is discounted entirely, and above
  its parts only where no cent is discounted and the subtotal and surcharges both round down.

The amounts before the cents are results of the decimal context, so they lose digits of their own
past the 28th: `Charges.subtotal` and `Charges.total` are defined by the operations as the code
makes them, and what they lose enters both conditions.  It loses nothing where it would matter
most: the subtotal less its discount is exact (`Charges.Within.represents_discounted`).
-/

namespace NewlifeCore

open Txn Prog Rounding

variable {db : Db} {t : Int}

/-! ## 1. Cents -/

/-- A hundredth, `MONEY_QUANT`. -/
def cent : Decimal := 1 / 100

theorem cent_pos : 0 < cent := by norm_num [cent]

theorem roundMoney_eq (amount : Decimal) : roundMoney amount = halfUp cent amount := by
  have hfloor : ∀ q : Decimal, q.floor = ⌊q⌋ := fun _ => rfl
  simp only [roundMoney, halfUp, cent, round_eq, hfloor, div_div_eq_mul_div, div_one]
  split
  · ring
  · ring

/-- What is quantized is rounded, and its cents fit into the context. -/
theorem quantizeMoney_ok {amount x : Decimal} (h : quantizeMoney amount = .ok x) :
    x = halfUp cent amount ∧ |x| < 10 ^ 26 := by
  obtain ⟨hlt, rfl⟩ := quantizeMoney_ok_iff.mp h
  exact ⟨roundMoney_eq amount, hlt⟩

/-- So many cents need no more digits than the context has. -/
theorem represents_cents {m : Decimal} (hm : IsMultiple cent m) (hle : |m| ≤ 10 ^ 26) :
    decimalContext.Represents m := by
  obtain ⟨k, hk⟩ := hm
  refine decimalContext.represents_of_multiple (e := -2) (k := k) (by decide) ?_ ?_
  · rw [hk, cent]
    norm_num
  · exact hle.trans (by norm_num [decimalContext])

/-! ## 2. The charges behind a quote -/

namespace PricingService

/-- What a quote is made of before any cent is rounded. -/
structure Charges where
  lines : List Decimal
  percent : Decimal
  surcharge : Decimal

/-- `subtotal`: the lines added one after another. -/
def Charges.subtotal (c : Charges) : Decimal :=
  c.lines.foldl (fun sum line => Decimal.fit (sum + line)) 0

/-- `discount_amount` before it is rounded to the cent. -/
def Charges.share (c : Charges) : Decimal :=
  Decimal.fit (Decimal.fit (c.subtotal * c.percent) / 100)

/-- `discount_amount`. -/
def Charges.discount (c : Charges) : Decimal := roundMoney c.share

/-- `quoted_amount` before it is rounded to the cent. -/
def Charges.total (c : Charges) : Decimal :=
  Decimal.fit (Decimal.fit (c.subtotal - c.discount) + c.surcharge)

/-- What the digits of the context drop from the total. -/
def Charges.dropped (c : Charges) : Decimal := c.subtotal - c.discount + c.surcharge - c.total

/-- The charges once the discount is known; a free Ministry Booking has none. -/
def chargesGiven (command : PreviewQuoteCommand) (eligibility : DiscountEligibility) :
    Portal (Option Charges) :=
  if eligibility.isFreeMinistry then pure none
  else do
    let quoted ← mapEach command.roomLines (quoteLine command.asOfDate)
    let surcharge ← computeSurcharges command
    pure (some ⟨quoted.map Prod.snd, eligibility.discountPercent, surcharge⟩)

/-- **The charges of a request.** -/
def chargesOf (command : PreviewQuoteCommand) : Portal (Option Charges) := do
  let eligibility ← DiscountEligibilityService.evaluate command.bookingType command.ministryId
    command.bookerId
  chargesGiven command eligibility

/-- The subtotals of the returned lines. -/
def lineSubtotals (quote : Quote) : List Decimal := quote.roomLines.map QuotedLine.lineSubtotal

/-- The amounts of a quote are the rounded charges, and their cents fit into the context. -/
structure Prices (quote : Quote) (c : Charges) : Prop where
  lines : lineSubtotals quote = c.lines.map (halfUp cent)
  subtotal : quote.subtotalAmount = halfUp cent c.subtotal
  discount : quote.discountAmount = c.discount
  surcharge : quote.surchargeAmount = halfUp cent c.surcharge
  quoted : quote.quotedAmount = halfUp cent c.total
  subtotal_lt : |quote.subtotalAmount| < 10 ^ 26
  quoted_lt : |quote.quotedAmount| < 10 ^ 26

/-- Every amount of a free quote is zero. -/
structure Free (quote : Quote) : Prop where
  lines : ∀ x ∈ lineSubtotals quote, x = 0
  subtotal : quote.subtotalAmount = 0
  discount : quote.discountAmount = 0
  surcharge : quote.surchargeAmount = 0
  quoted : quote.quotedAmount = 0

theorem freeMinistryQuote_free (command : PreviewQuoteCommand) : Free (freeMinistryQuote command) where
  lines x hx := by
    simp only [lineSubtotals, freeMinistryQuote, List.map_map, List.mem_map] at hx
    obtain ⟨line, -, rfl⟩ := hx
    rfl
  subtotal := rfl
  discount := rfl
  surcharge := rfl
  quoted := rfl

/-- The subtotal of a line is its charge rounded. -/
theorem quoteLine_rounds {asOf : Option Int} {line : QuoteLine} {q : QuotedLine × Decimal}
    (h : (quoteLine asOf line).eval db t = .ok q) : q.1.lineSubtotal = halfUp cent q.2 := by
  obtain ⟨rate, -, h⟩ := (eval_bind_iff (resolveRateForRoom_readOnly _ _ asOf)).mp h
  cases rate with
  | none => cases h
  | some rate =>
    obtain ⟨subtotal, -, h⟩ := (eval_bind_iff (ReadOnly.ofExcept _)).mp h
    obtain ⟨lineSubtotal, hround, h⟩ := (eval_bind_iff (ReadOnly.ofExcept _)).mp h
    cases h
    rw [eval_ofExcept] at hround
    exact (quantizeMoney_ok hround).1

theorem discountOf_ok {subtotal percent x : Decimal} (h : discountOf subtotal percent = .ok x) :
    x = roundMoney (Decimal.fit (Decimal.fit (subtotal * percent) / 100)) := by
  unfold discountOf at h
  cases hproduct : Decimal.result (subtotal * percent) with
  | error e =>
    rw [hproduct] at h
    cases h
  | ok product =>
    rw [hproduct] at h
    cases hshare : Decimal.result (product / 100) with
    | error e =>
      have : (Decimal.result (product / 100)).bind quantizeMoney = .ok x := h
      rw [hshare] at this
      cases this
    | ok share =>
      have : (Decimal.result (product / 100)).bind quantizeMoney = .ok x := h
      rw [hshare] at this
      rw [← Decimal.result_eq hproduct, ← Decimal.result_eq hshare]
      exact (quantizeMoney_ok_iff.mp this).2.symm

/-- **A returned quote prices the charges of its request**, or is free where there are none. -/
theorem previewQuote_prices {command : PreviewQuoteCommand} {quote : Quote}
    (h : (previewQuote command).eval db t = .ok quote) :
    ∃ charges, (chargesOf command).eval db t = .ok charges ∧
      (charges = none → Free quote) ∧ ∀ c, charges = some c → Prices quote c := by
  obtain ⟨u, -, h⟩ := (eval_bind_iff (ReadOnly.raiseIf _ _)).mp h
  obtain ⟨u, -, h⟩ := (eval_bind_iff (ReadOnly.each checkLine_readOnly _)).mp h
  obtain ⟨eligibility, helig, h⟩ := (eval_bind_iff (evaluate_readOnly _ _ _)).mp h
  have hcharges : ∀ {charges}, (chargesGiven command eligibility).eval db t = .ok charges →
      (chargesOf command).eval db t = .ok charges := fun hgiven =>
    (eval_bind_iff (evaluate_readOnly _ _ _)).mpr ⟨eligibility, helig, hgiven⟩
  unfold pricedQuote at h
  split at h
  · rename_i hfree
    cases h
    exact ⟨none, hcharges (by rw [chargesGiven, if_pos hfree]; rfl),
      fun _ => freeMinistryQuote_free command, nofun⟩
  · rename_i hfree
    obtain ⟨quoted, hquoted, h⟩ :=
      (eval_bind_iff (ReadOnly.mapEach (quoteLine_readOnly _) _)).mp h
    obtain ⟨subtotal, hsum, h⟩ := (eval_bind_iff (ReadOnly.ofExcept _)).mp h
    obtain ⟨discountAmount, hdiscount, h⟩ := (eval_bind_iff (ReadOnly.ofExcept _)).mp h
    obtain ⟨afterDiscount, hafter, h⟩ := (eval_bind_iff (ReadOnly.ofExcept _)).mp h
    obtain ⟨surcharge, hsurcharge, h⟩ := (eval_bind_iff (computeSurcharges_readOnly _)).mp h
    obtain ⟨quotedExact, hexact, h⟩ := (eval_bind_iff (ReadOnly.ofExcept _)).mp h
    obtain ⟨subtotalAmount, hsubtotal, h⟩ := (eval_bind_iff (ReadOnly.ofExcept _)).mp h
    obtain ⟨surchargeAmount, hamount, h⟩ := (eval_bind_iff (ReadOnly.ofExcept _)).mp h
    obtain ⟨quotedAmount, htotal, h⟩ := (eval_bind_iff (ReadOnly.ofExcept _)).mp h
    cases h
    rw [eval_ofExcept] at hsum hdiscount hafter hexact hsubtotal hamount htotal
    refine ⟨some ⟨quoted.map Prod.snd, eligibility.discountPercent, surcharge⟩, hcharges ?_, nofun,
      fun c hc => ?_⟩
    · rw [chargesGiven, if_neg hfree]
      exact (eval_bind_iff (ReadOnly.mapEach (quoteLine_readOnly _) _)).mpr ⟨quoted, hquoted,
        (eval_bind_iff (computeSurcharges_readOnly _)).mpr ⟨surcharge, hsurcharge, rfl⟩⟩
    · cases hc
      -- each figure is what its operation returned, and the operations are those of the charges
      cases Decimal.sum_eq hsum
      cases discountOf_ok hdiscount
      cases Decimal.result_eq hafter
      cases Decimal.result_eq hexact
      have hlines : (quoted.map Prod.fst).map QuotedLine.lineSubtotal =
          (quoted.map Prod.snd).map (halfUp cent) := by
        simp only [List.map_map]
        refine List.map_congr_left fun q hq => ?_
        obtain ⟨line, -, hline⟩ := eval_mapEach_mem (quoteLine_readOnly _) hquoted hq
        exact quoteLine_rounds hline
      exact ⟨hlines, (quantizeMoney_ok hsubtotal).1, rfl, (quantizeMoney_ok hamount).1,
        (quantizeMoney_ok htotal).1, (quantizeMoney_ok hsubtotal).2, (quantizeMoney_ok htotal).2⟩

/-! ## 3. Adding up -/

/-- **The figures of a quote agree.** -/
structure AddsUp (quote : Quote) : Prop where
  lines : (lineSubtotals quote).sum = quote.subtotalAmount
  total : quote.subtotalAmount - quote.discountAmount + quote.surchargeAmount = quote.quotedAmount

/-- **The rounding errors stay within the half cent that the sums leave**: those of the lines at
the subtotal, and those of the subtotal and of the surcharges at the total, each with what the sum
itself lost beyond the context's digits. -/
structure ErrorsAbsorbed (c : Charges) : Prop where
  lines : AbsorbsError cent c.subtotal (errors cent c.lines + (c.lines.sum - c.subtotal))
  total : AbsorbsError cent c.total (error cent c.subtotal + error cent c.surcharge + c.dropped)

theorem Free.addsUp {quote : Quote} (h : Free quote) : AddsUp quote where
  lines := by rw [List.sum_eq_zero h.lines, h.subtotal]
  total := by rw [h.subtotal, h.discount, h.surcharge, h.quoted]; norm_num

theorem Charges.discount_isMultiple (c : Charges) : IsMultiple cent c.discount := by
  rw [Charges.discount, roundMoney_eq]
  exact halfUp_isMultiple

theorem Prices.addsUp_iff {quote : Quote} {c : Charges} (h : Prices quote c) :
    AddsUp quote ↔ ErrorsAbsorbed c := by
  have hlines : (lineSubtotals quote).sum = quote.subtotalAmount ↔
      AbsorbsError cent c.subtotal (errors cent c.lines + (c.lines.sum - c.subtotal)) := by
    have herr : (c.lines.map (halfUp cent)).sum - c.subtotal =
        errors cent c.lines + (c.lines.sum - c.subtotal) := by
      rw [sum_halfUp]
      ring
    rw [h.lines, h.subtotal, eq_comm, halfUp_eq_iff cent_pos (sum_halfUp_isMultiple c.lines), herr]
  have htotal : quote.subtotalAmount - quote.discountAmount + quote.surchargeAmount =
      quote.quotedAmount ↔
        AbsorbsError cent c.total (error cent c.subtotal + error cent c.surcharge + c.dropped) := by
    have hm : IsMultiple cent (halfUp cent c.subtotal - c.discount + halfUp cent c.surcharge) :=
      (halfUp_isMultiple.sub c.discount_isMultiple).add halfUp_isMultiple
    have herr : halfUp cent c.subtotal - c.discount + halfUp cent c.surcharge - c.total =
        error cent c.subtotal + error cent c.surcharge + c.dropped := by
      rw [Charges.dropped, error, error]
      ring
    rw [h.subtotal, h.discount, h.surcharge, h.quoted, eq_comm, halfUp_eq_iff cent_pos hm, herr]
  constructor
  · intro hadds
    exact ⟨hlines.mp hadds.lines, htotal.mp hadds.total⟩
  · intro habs
    exact ⟨hlines.mpr habs.lines, htotal.mpr habs.total⟩

/-- The room let at 20.25 an hour, and a recurring discount. -/
def roomLetAt (unitAmount percentOff : Decimal) : Db :=
  { Db.oneRoom with
    rateTemplates := [{ id := 1, name := "standard", billingUnit := "hourly"
                        unitAmount := unitAmount, isDefault := true }]
    discountRules := [{ id := 1, code := "recurring_weekly_monthly", percentOff := percentOff }]
    surcharges := [{ id := 1, code := "audio", chargeType := "per_hour", unitAmount := unitAmount }] }

/-- The room for some times, one after another. -/
def quoteHours (bookingType : BookingType) (hours : List Decimal) (surchargeCodes : List String) :
    PreviewQuoteCommand where
  bookingType := bookingType
  roomLines := hours.map fun h => ⟨3, h⟩
  surchargeCodes := surchargeCodes
  bookerId := 7

/-- No price is negative, and every percentage is one. -/
structure PricedWithin (db : Db) : Prop where
  templates : ∀ r ∈ db.rateTemplates, 0 ≤ r.unitAmount
  surcharges : ∀ s ∈ db.surcharges, 0 ≤ s.unitAmount
  percents : ∀ r ∈ db.discountRules, 0 ≤ r.percentOff ∧ r.percentOff ≤ 100

/-- The charges of such a database. -/
structure Charges.Within (c : Charges) : Prop where
  lines : ∀ x ∈ c.lines, 0 ≤ x
  percent_nonneg : 0 ≤ c.percent
  percent_le : c.percent ≤ 100
  surcharge : 0 ≤ c.surcharge

/-! ### 4.1 Charges are not negative -/

/-- The chosen rate is one of those offered. -/
theorem pickRateForLine_mem {rates : List RentalRate} {hours : Decimal} {allow : Bool}
    {rate : RentalRate} (h : RentalRepository.pickRateForLine rates hours allow = some rate) :
    rate ∈ rates := by
  unfold RentalRepository.pickRateForLine at h
  dsimp only at h
  split at h
  · rename_i chosen rest hsort
    cases h
    have hmem : rate ∈ (rates.filter fun r => r.isActive && matchesApplicability r.applicability
        hours).insertionSort fun a b => RentalRepository.rateRank a ≤ RentalRepository.rateRank b :=
      hsort ▸ List.mem_cons_self
    exact List.mem_of_mem_filter ((List.perm_insertionSort _ _).mem_iff.mp hmem)
  · split at h
    · rename_i found hfound
      cases h
      exact List.mem_of_find?_eq_some hfound
    · split at h
      · exact List.mem_of_find?_eq_some h
      · cases h

theorem resolveRateForRoom_nonneg (hdb : PricedWithin db) {facilityId : UUID} {hours : Decimal}
    {asOf : Option Int} {rate : RentalRate}
    (h : (resolveRateForRoom facilityId hours asOf).eval db t = .ok (some rate)) :
    0 ≤ rate.unitAmount := by
  obtain ⟨rates, hrates, h⟩ := (eval_bind_iff (ReadOnly.select _)).mp h
  cases hrates
  split at h
  · rename_i picked hpick
    cases h
    obtain ⟨r, -, hr⟩ := List.mem_flatMap.mp (pickRateForLine_mem hpick)
    obtain ⟨template, htemplate, rfl⟩ := List.mem_map.mp hr
    exact hdb.templates template (List.mem_of_mem_filter htemplate)
  · obtain ⟨candidates, hcandidates, h⟩ := (eval_bind_iff (ReadOnly.select _)).mp h
    cases hcandidates
    obtain ⟨template, htemplate, rfl⟩ := List.mem_map.mp (pickRateForLine_mem (Except.ok.inj h))
    exact hdb.templates template
      (List.mem_of_mem_filter ((List.perm_insertionSort _ _).mem_iff.mp htemplate))

theorem computeLineSubtotal_nonneg {billingUnit : String} {unitAmount hours x : Decimal}
    (hu : 0 ≤ unitAmount) (hh : 0 ≤ hours)
    (h : computeLineSubtotal billingUnit unitAmount hours = .ok x) : 0 ≤ x := by
  have hmul := decimalContext.fit_nonneg (mul_nonneg hu hh)
  have hresult : Decimal.result (unitAmount * hours) = .ok x → 0 ≤ x := by
    intro hx
    rw [Decimal.result_eq hx]
    exact hmul
  unfold computeLineSubtotal at h
  split_ifs at h
  · exact (Except.ok.inj h) ▸ hu
  · exact hresult h
  · exact (Except.ok.inj h) ▸ hu
  · exact (Except.ok.inj h) ▸ hu
  · exact hresult h

theorem quoteLine_nonneg (hdb : PricedWithin db) {asOf : Option Int} {line : QuoteLine}
    {q : QuotedLine × Decimal} (hh : 0 ≤ line.billedHours)
    (h : (quoteLine asOf line).eval db t = .ok q) : 0 ≤ q.2 := by
  obtain ⟨rate, hrate, h⟩ := (eval_bind_iff (resolveRateForRoom_readOnly _ _ asOf)).mp h
  cases rate with
  | none => cases h
  | some rate =>
    obtain ⟨subtotal, hsubtotal, h⟩ := (eval_bind_iff (ReadOnly.ofExcept _)).mp h
    obtain ⟨lineSubtotal, -, h⟩ := (eval_bind_iff (ReadOnly.ofExcept _)).mp h
    cases h
    rw [eval_ofExcept] at hsubtotal
    exact computeLineSubtotal_nonneg (resolveRateForRoom_nonneg hdb hrate) hh hsubtotal

/-- Amounts that are not negative add up to one that is not. -/
theorem foldl_fit_nonneg {values : List Decimal} (hv : ∀ x ∈ values, 0 ≤ x) {start : Decimal}
    (hs : 0 ≤ start) : 0 ≤ values.foldl (fun sum value => Decimal.fit (sum + value)) start := by
  induction values generalizing start with
  | nil => exact hs
  | cons value values ih =>
    rw [List.foldl_cons]
    exact ih (fun x hx => hv x (List.mem_cons_of_mem _ hx))
      (decimalContext.fit_nonneg (add_nonneg hs (hv value List.mem_cons_self)))

theorem surchargeCharge_nonneg {s : FacilityRentalSurcharge} {hours x : Decimal}
    (hs : 0 ≤ s.unitAmount) (hh : 0 ≤ hours) (h : surchargeCharge s hours = .ok x) : 0 ≤ x := by
  unfold surchargeCharge at h
  split_ifs at h
  · rw [Decimal.result_eq h]
    exact decimalContext.fit_nonneg (mul_nonneg hs hh)
  · exact (Except.ok.inj h) ▸ hs

theorem surchargeTotal_nonneg {surcharges : List FacilityRentalSurcharge} {hours total : Decimal}
    (hs : ∀ s ∈ surcharges, 0 ≤ s.unitAmount) (hh : 0 ≤ hours) (ht : 0 ≤ total)
    {codes : List String} {x : Decimal}
    (h : surchargeTotal surcharges hours total codes = .ok x) : 0 ≤ x := by
  induction codes generalizing total with
  | nil => exact (Except.ok.inj h) ▸ ht
  | cons code codes ih =>
    unfold surchargeTotal at h
    split at h
    · cases h
    · rename_i s hfind
      have hunit : 0 ≤ s.unitAmount := hs s (List.mem_of_mem_filter
        (List.mem_reverse.mp (List.mem_of_find?_eq_some hfind)))
      cases hcharge : surchargeCharge s hours with
      | error e =>
        rw [hcharge] at h
        cases h
      | ok charge =>
        rw [hcharge] at h
        cases hadd : Decimal.result (total + charge) with
        | error e =>
          simp only [Except.bind, hadd] at h
          cases h
        | ok total' =>
          simp only [Except.bind, hadd] at h
          refine ih ?_ h
          rw [Decimal.result_eq hadd]
          exact decimalContext.fit_nonneg
            (add_nonneg ht (surchargeCharge_nonneg hunit hh hcharge))

theorem computeSurcharges_nonneg (hdb : PricedWithin db) {command : PreviewQuoteCommand}
    (hh : ∀ line ∈ command.roomLines, 0 ≤ line.billedHours) {x : Decimal}
    (h : (computeSurcharges command).eval db t = .ok x) : 0 ≤ x := by
  unfold computeSurcharges at h
  split at h
  · cases h
    exact le_refl _
  · obtain ⟨surcharges, hsurcharges, h⟩ := (eval_bind_iff (ReadOnly.select _)).mp h
    obtain ⟨hours, hhours, h⟩ := (eval_bind_iff (ReadOnly.ofExcept _)).mp h
    cases hsurcharges
    rw [eval_ofExcept] at hhours h
    refine surchargeTotal_nonneg (fun s hs => ?_) ?_ (le_refl 0) h
    · exact hdb.surcharges s
        (List.mem_of_mem_filter ((List.perm_insertionSort _ _).mem_iff.mp hs))
    · rw [Decimal.sum_eq hhours]
      refine foldl_fit_nonneg (fun x hx => ?_) (le_refl 0)
      obtain ⟨line, hline, rfl⟩ := List.mem_map.mp hx
      exact hh line hline

theorem evaluate_within (hdb : PricedWithin db) {bookingType : BookingType}
    {ministryId : Option UUID} {bookerId : UUID} {e : DiscountEligibility}
    (h : (DiscountEligibilityService.evaluate bookingType ministryId bookerId).eval db t = .ok e) :
    0 ≤ e.discountPercent ∧ e.discountPercent ≤ 100 := by
  have hzero : (0 : Decimal) ≤ 0 ∧ (0 : Decimal) ≤ 100 := by norm_num
  obtain ⟨qualifying, -, h⟩ := (eval_bind_iff (isQualifying_readOnly _ _)).mp h
  split at h
  · cases h
    exact hzero
  · split at h
    · obtain ⟨rules, hrules, h⟩ := (eval_bind_iff (ReadOnly.select _)).mp h
      cases hrules
      split at h
      · rename_i rule hfind
        cases h
        exact hdb.percents rule (List.mem_of_mem_filter
          ((List.perm_insertionSort _ _).mem_iff.mp (List.mem_of_find?_eq_some hfind)))
      · cases h
        exact hzero
    · cases h
      exact hzero

/-- The charges of a quoted request lie within the database's prices and percentages. -/
theorem chargesOf_within (hdb : PricedWithin db) {command : PreviewQuoteCommand} {quote : Quote}
    (hq : (previewQuote command).eval db t = .ok quote) {c : Charges}
    (h : (chargesOf command).eval db t = .ok (some c)) : c.Within := by
  obtain ⟨u, -, hq⟩ := (eval_bind_iff (ReadOnly.raiseIf _ _)).mp hq
  obtain ⟨u, hcheck, -⟩ := (eval_bind_iff (ReadOnly.each checkLine_readOnly _)).mp hq
  have hhours : ∀ line ∈ command.roomLines, 0 ≤ line.billedHours := by
    intro line hline
    obtain ⟨known, -, hline⟩ :=
      (eval_bind_iff (ReadOnly.select _)).mp ((eval_each_ok checkLine_readOnly).mp hcheck line hline)
    obtain ⟨u, -, hline⟩ := (eval_bind_iff (ReadOnly.raiseIf _ _)).mp hline
    have := of_decide_eq_false (eval_raiseIf_ok.mp hline)
    linarith
  obtain ⟨eligibility, helig, h⟩ := (eval_bind_iff (evaluate_readOnly _ _ _)).mp h
  obtain ⟨hnonneg, hle⟩ := evaluate_within hdb helig
  unfold chargesGiven at h
  split at h
  · cases h
  · obtain ⟨quoted, hquoted, h⟩ := (eval_bind_iff (ReadOnly.mapEach (quoteLine_readOnly _) _)).mp h
    obtain ⟨surcharge, hsurcharge, h⟩ := (eval_bind_iff (computeSurcharges_readOnly _)).mp h
    cases h
    refine ⟨fun x hx => ?_, hnonneg, hle, computeSurcharges_nonneg hdb hhours hsurcharge⟩
    obtain ⟨q, hqm, rfl⟩ := List.mem_map.mp hx
    obtain ⟨line, hline, hlineq⟩ := eval_mapEach_mem (quoteLine_readOnly _) hquoted hqm
    exact quoteLine_nonneg hdb (hhours line hline) hlineq

/-! ### 4.2 The discount and the total -/

/-- **The bounds of a quote.** -/
structure Bounded (quote : Quote) : Prop where
  discount_nonneg : 0 ≤ quote.discountAmount
  discount_le : quote.discountAmount ≤ quote.subtotalAmount
  quoted_nonneg : 0 ≤ quote.quotedAmount
  quoted_le : quote.quotedAmount ≤ quote.subtotalAmount + quote.surchargeAmount

/-- **The half cents that break a bound are not there**: a subtotal that ends on half a cent is not
discounted entirely, unless the surcharges lift it off that half cent; and where the discount comes
to less than half a cent, rounding takes less than half a cent off the subtotal and the surcharges
together, what their sum loses beyond the context's digits included. -/
structure HalfCentsKept (c : Charges) : Prop where
  discounted : c.share = c.subtotal → error cent c.subtotal = cent / 2 →
    Decimal.fit (c.surcharge - cent / 2) ≠ -(cent / 2)
  undiscounted : c.share < cent / 2 → -(cent / 2) < error cent c.subtotal +
    error cent c.surcharge + (c.subtotal + c.surcharge - Decimal.fit (c.subtotal + c.surcharge))

theorem Free.bounded {quote : Quote} (h : Free quote) : Bounded quote where
  discount_nonneg := h.discount.symm.le
  discount_le := by rw [h.discount, h.subtotal]
  quoted_nonneg := h.quoted.symm.le
  quoted_le := by rw [h.quoted, h.subtotal, h.surcharge, add_zero]

variable {c : Charges}

theorem Charges.Within.subtotal_nonneg (h : c.Within) : 0 ≤ c.subtotal :=
  foldl_fit_nonneg h.lines (le_refl 0)

theorem Charges.discount_eq (c : Charges) : c.discount = halfUp cent c.share := roundMoney_eq _

/-- A sum is a result of the context. -/
theorem represents_foldl (values : List Decimal) {start : Decimal}
    (hs : decimalContext.Represents start) : decimalContext.Represents
      (values.foldl (fun sum value => Decimal.fit (sum + value)) start) := by
  induction values generalizing start with
  | nil => exact hs
  | cons value values ih => exact ih (decimalContext.represents_fit _)

theorem Charges.represents_subtotal (c : Charges) : decimalContext.Represents c.subtotal :=
  represents_foldl c.lines decimalContext.represents_zero

/-- What is taken off before rounding is at most the subtotal. -/
theorem Charges.Within.share (h : c.Within) : 0 ≤ c.share ∧ c.share ≤ c.subtotal := by
  have hs := h.subtotal_nonneg
  have hmul := mul_nonneg hs h.percent_nonneg
  have hhundred : decimalContext.Represents (c.subtotal * 100) := by
    have := c.represents_subtotal.shift decimalContext 2
    norm_num at this
    exact this
  have hproduct : Decimal.fit (c.subtotal * c.percent) ≤ c.subtotal * 100 :=
    decimalContext.fit_le hhundred (mul_le_mul_of_nonneg_left h.percent_le hs)
  have hproduct0 : 0 ≤ Decimal.fit (c.subtotal * c.percent) := decimalContext.fit_nonneg hmul
  constructor
  · exact decimalContext.fit_nonneg (div_nonneg hproduct0 (by norm_num))
  · exact decimalContext.fit_le c.represents_subtotal (by linarith)

theorem Charges.Within.discount_bounds (h : c.Within) :
    0 ≤ c.discount ∧ c.discount ≤ halfUp cent c.subtotal := by
  rw [c.discount_eq]
  exact ⟨halfUp_nonneg cent_pos h.share.1, halfUp_mono cent_pos h.share.2⟩

/-- A subtotal whose cents fit into the context does so itself. -/
theorem lt_of_halfUp_lt {x : Decimal} (h : halfUp cent x < 10 ^ 26) : x < 10 ^ 26 := by
  by_contra hle
  have hmono := halfUp_mono cent_pos (not_lt.mp hle)
  have hfix : halfUp cent (10 ^ 26 : Decimal) = 10 ^ 26 := by
    rw [halfUp_eq_iff cent_pos ⟨10 ^ 28, by norm_num [cent]⟩, AbsorbsError, sub_self,
      if_neg (by norm_num)]
    norm_num [cent]
  linarith

/-- **The subtotal less its discount is exact**: it is no larger than the subtotal, and the discount
is a number of cents. -/
theorem Charges.Within.represents_discounted (h : c.Within)
    (hlt : halfUp cent c.subtotal < 10 ^ 26) :
    decimalContext.Represents (c.subtotal - c.discount) := by
  have hs := h.subtotal_nonneg
  have hd := h.discount_bounds
  have hs26 := lt_of_halfUp_lt hlt
  have hcent := cent_pos
  have hle : |c.subtotal - c.discount| ≤ c.subtotal := by
    rw [abs_le]
    refine ⟨?_, by linarith⟩
    rcases lt_or_ge c.subtotal (cent / 2) with hsmall | hlarge
    · -- less than half a cent has no discount
      have hzero : halfUp cent c.subtotal ≤ 0 := by
        have := (lt_halfUp_iff (x := c.subtotal) cent_pos .zero (le_refl 0)).not.mpr
        exact not_lt.mp (this (by linarith))
      linarith
    · have herr := error_le cent_pos c.subtotal
      have heq := halfUp_eq_add cent c.subtotal
      linarith
  obtain ⟨k, hk⟩ := c.discount_isMultiple
  refine c.represents_subtotal.sub decimalContext (e := -2) (k := k) (by decide) ?_ ?_ ?_
  · rw [hk, cent]
    norm_num
  · rwa [abs_of_nonneg hs]
  · refine hle.trans (hs26.le.trans ?_)
    norm_num [decimalContext]

theorem represents_half : decimalContext.Represents (-(cent / 2)) := by
  refine decimalContext.represents_of_multiple (e := -3) (k := -5) (by decide) ?_ ?_
  · norm_num [cent]
  · norm_num [cent, decimalContext]

/-- The total, the discount taken off exactly. -/
theorem Charges.Within.total_eq (h : c.Within) (hlt : halfUp cent c.subtotal < 10 ^ 26) :
    c.total = Decimal.fit (c.subtotal - c.discount + c.surcharge) := by
  have hfit : Decimal.fit (c.subtotal - c.discount) = c.subtotal - c.discount :=
    decimalContext.fit_of_represents (h.represents_discounted hlt)
  rw [Charges.total, hfit]

/-- **The quoted amount is negative** only where a subtotal ending on half a cent is discounted
entirely. -/
theorem Charges.Within.quoted_neg_iff (h : c.Within) (hlt : halfUp cent c.subtotal < 10 ^ 26) :
    halfUp cent c.total < 0 ↔ c.share = c.subtotal ∧ error cent c.subtotal = cent / 2 ∧
      Decimal.fit (c.surcharge - cent / 2) = -(cent / 2) := by
  have herr := error_le cent_pos c.subtotal
  have heq := halfUp_eq_add cent c.subtotal
  have hdisc := h.discount_bounds.2
  have hsur := h.surcharge
  have hcent := cent_pos
  rw [halfUp_neg_iff cent_pos, h.total_eq hlt]
  constructor
  · intro hneg
    -- the surcharges only raise it, and what they are added to is exact
    have hrest : c.subtotal - c.discount ≤ -(cent / 2) :=
      (decimalContext.le_fit (h.represents_discounted hlt) (by linarith)).trans hneg
    have he : error cent c.subtotal = cent / 2 := by linarith
    have hd : halfUp cent c.subtotal = c.discount := by linarith
    have hde := error_le cent_pos c.share
    have hdq := halfUp_eq_add cent c.share
    rw [← c.discount_eq, ← hd] at hdq
    have hshare : c.share = c.subtotal := le_antisymm h.share.2 (by linarith)
    have hsum : c.subtotal - c.discount + c.surcharge = c.surcharge - cent / 2 := by linarith
    rw [hsum] at hneg
    exact ⟨hshare, he, le_antisymm hneg (decimalContext.le_fit represents_half (by linarith))⟩
  · rintro ⟨hshare, he, hfit⟩
    have hd : c.discount = halfUp cent c.subtotal := by rw [c.discount_eq, hshare]
    have hsum : c.subtotal - c.discount + c.surcharge = c.surcharge - cent / 2 := by linarith
    rw [hsum, hfit]

/-- The discount comes to nothing where its share is less than half a cent. -/
theorem Charges.Within.discount_eq_zero_iff (h : c.Within) :
    c.discount = 0 ↔ c.share < cent / 2 := by
  have hlt := lt_halfUp_iff (x := c.share) cent_pos .zero (le_refl 0)
  rw [← c.discount_eq, zero_add] at hlt
  rw [← not_le, ← hlt, not_lt]
  exact ⟨fun h0 => h0.le, fun hle => le_antisymm hle h.discount_bounds.1⟩

/-- With a cent of discount the quoted amount is at most the charges. -/
theorem Charges.Within.total_le (h : c.Within) (hlt : halfUp cent c.subtotal < 10 ^ 26)
    (hd : cent ≤ c.discount)
    (hsum : halfUp cent c.subtotal + halfUp cent c.surcharge ≤ 10 ^ 26) :
    c.total ≤ halfUp cent c.subtotal + halfUp cent c.surcharge := by
  have hes := neg_half_lt_error cent_pos h.subtotal_nonneg
  have hec := neg_half_lt_error cent_pos h.surcharge
  have heqs := halfUp_eq_add cent c.subtotal
  have heqc := halfUp_eq_add cent c.surcharge
  have hnonneg := add_nonneg (halfUp_nonneg cent_pos h.subtotal_nonneg)
    (halfUp_nonneg cent_pos h.surcharge)
  rw [h.total_eq hlt]
  refine decimalContext.fit_le (represents_cents ?_ ?_) (by linarith)
  · exact halfUp_isMultiple.add halfUp_isMultiple
  · rwa [abs_of_nonneg hnonneg]

/-- **The quoted amount is more than the charges** only where the discount rounds to nothing and the
subtotal and surcharges lose half a cent between them. -/
theorem Charges.Within.lt_quoted_iff (h : c.Within) (hlt : halfUp cent c.subtotal < 10 ^ 26)
    (hquoted : halfUp cent c.total < 10 ^ 26) :
    halfUp cent c.subtotal + halfUp cent c.surcharge < halfUp cent c.total ↔
      c.share < cent / 2 ∧ error cent c.subtotal + error cent c.surcharge +
        (c.subtotal + c.surcharge - Decimal.fit (c.subtotal + c.surcharge)) ≤ -(cent / 2) := by
  have heqs := halfUp_eq_add cent c.subtotal
  have heqc := halfUp_eq_add cent c.surcharge
  have hcent := cent_pos
  have hm : IsMultiple cent (halfUp cent c.subtotal + halfUp cent c.surcharge) :=
    halfUp_isMultiple.add halfUp_isMultiple
  have hraised := lt_halfUp_iff (x := c.total) cent_pos hm (add_nonneg
    (halfUp_nonneg cent_pos h.subtotal_nonneg) (halfUp_nonneg cent_pos h.surcharge))
  have hundiscounted : c.discount = 0 → c.total = Decimal.fit (c.subtotal + c.surcharge) := by
    intro h0
    rw [h.total_eq hlt, h0, sub_zero]
  rw [← h.discount_eq_zero_iff]
  constructor
  · intro hgt
    have h0 : c.discount = 0 := by
      by_contra hne
      have hpos := lt_of_le_of_ne h.discount_bounds.1 (Ne.symm hne)
      have hle := h.total_le hlt (c.discount_isMultiple.step_le cent_pos hpos) (by linarith)
      have := hraised.mp hgt
      linarith
    have := hraised.mp hgt
    rw [hundiscounted h0] at this
    exact ⟨h0, by linarith⟩
  · rintro ⟨h0, hle⟩
    refine hraised.mpr ?_
    rw [hundiscounted h0]
    linarith

theorem Prices.bounded_iff {quote : Quote} (hp : Prices quote c) (hw : c.Within) :
    Bounded quote ↔ HalfCentsKept c := by
  have hsubtotal : halfUp cent c.subtotal < 10 ^ 26 := hp.subtotal ▸ (abs_lt.mp hp.subtotal_lt).2
  have hquoted : halfUp cent c.total < 10 ^ 26 := hp.quoted ▸ (abs_lt.mp hp.quoted_lt).2
  have hneg := hw.quoted_neg_iff hsubtotal
  have hlt := hw.lt_quoted_iff hsubtotal hquoted
  constructor
  · intro hb
    constructor
    · intro hshare herr hfit
      have := hb.quoted_nonneg
      rw [hp.quoted] at this
      exact absurd (hneg.mpr ⟨hshare, herr, hfit⟩) (not_lt.mpr this)
    · intro hshare
      have := hb.quoted_le
      rw [hp.quoted, hp.subtotal, hp.surcharge] at this
      by_contra hle
      exact absurd (hlt.mpr ⟨hshare, not_lt.mp hle⟩) (not_lt.mpr this)
  · intro hk
    constructor
    · rw [hp.discount]
      exact hw.discount_bounds.1
    · rw [hp.discount, hp.subtotal]
      exact hw.discount_bounds.2
    · rw [hp.quoted]
      by_contra hq
      obtain ⟨hshare, herr, hfit⟩ := hneg.mp (not_le.mp hq)
      exact hk.discounted hshare herr hfit
    · rw [hp.quoted, hp.subtotal, hp.surcharge]
      by_contra hq
      obtain ⟨hshare, hle⟩ := hlt.mp (not_le.mp hq)
      exact absurd (hk.undiscounted hshare) (not_lt.mpr hle)

/-- **When a quote keeps its bounds**: its request is free, or no half cent of its charges is lost
or given away. -/
theorem previewQuote_bounded_iff {command : PreviewQuoteCommand} {quote : Quote}
    (hdb : PricedWithin db) (h : (previewQuote command).eval db t = .ok quote) :
    Bounded quote ↔
      ∀ c, (chargesOf command).eval db t = .ok (some c) → HalfCentsKept c := by
  obtain ⟨charges, hcharges, hfree, hprices⟩ := previewQuote_prices h
  cases charges with
  | none =>
    rw [hcharges]
    exact ⟨fun _ => nofun, fun _ => (hfree rfl).bounded⟩
  | some c =>
    rw [(hprices c rfl).bounded_iff (chargesOf_within hdb h hcharges), hcharges]
    constructor
    · rintro hk c' ⟨⟩
      exact hk
    · exact fun hall => hall c rfl

/-- A quote to which the equivalence applies. -/
theorem previewQuote_bounded_iff_hour :
    ∃ quote, (previewQuote (quoteHours .oneTime [1] [])).eval (roomLetAt 20 0) 50 = .ok quote ∧
      (Bounded quote ↔ ∀ c, (chargesOf (quoteHours .oneTime [1] [])).eval (roomLetAt 20 0) 50 =
        .ok (some c) → HalfCentsKept c) := by
  have hdb : PricedWithin (roomLetAt 20 0) := ⟨by decide +kernel, by decide +kernel, by decide +kernel⟩
  have hok : ((previewQuote (quoteHours .oneTime [1] [])).eval (roomLetAt 20 0) 50).isOk = true := by
    decide +kernel
  cases h : (previewQuote (quoteHours .oneTime [1] [])).eval (roomLetAt 20 0) 50 with
  | error e => rw [h] at hok; cases hok
  | ok quote => exact ⟨quote, rfl, previewQuote_bounded_iff hdb h⟩

/-- **A price may be negative**: half an hour at 20.25 in a Series whose discount is everything
comes to a cent less than nothing. -/
theorem previewQuote_not_bounded :
    ¬ ∀ (command : PreviewQuoteCommand) (db : Db) (t : Int) (quote : Quote), PricedWithin db →
      (previewQuote command).eval db t = .ok quote → Bounded quote := by
  intro hclaim
  have hdb : PricedWithin (roomLetAt (81 / 4) 100) :=
    ⟨by decide +kernel, by decide +kernel, by decide +kernel⟩
  have hquoted : ((previewQuote (quoteHours .recurring [1 / 2] [])).eval (roomLetAt (81 / 4) 100)
      50).toOption.map Quote.quotedAmount = some (-1 / 100) := by decide +kernel
  cases h : (previewQuote (quoteHours .recurring [1 / 2] [])).eval (roomLetAt (81 / 4) 100) 50 with
  | error e => rw [h] at hquoted; cases hquoted
  | ok quote =>
    rw [h] at hquoted
    have hneg : quote.quotedAmount = -1 / 100 := Option.some.inj hquoted
    have hnonneg := (hclaim _ _ _ _ hdb h).quoted_nonneg
    rw [hneg] at hnonneg
    norm_num at hnonneg

end PricingService

end NewlifeCore
