import NewlifeCore.Facility.QuoteSums
import NewlifeCore.Txn.Alike
import NewlifeCore.Lists

/-!
# Prices and the order of rows

`list_active_rates_for_facility` sorts nothing, and `pick_rate_for_line` settles a tie by the order
of its list.  The choice is the same in every order exactly when only one rate may be chosen.
-/

namespace NewlifeCore

open Txn Prog

/-! ## 1. The rates that may be chosen -/

namespace RentalRepository

variable {rates rates' : List RentalRate} {hours : Decimal} {r r' : RentalRate}

/-- The rate is active and its rule admits the hours. -/
def Applies (hours : Decimal) (r : RentalRate) : Prop :=
  (r.isActive && matchesApplicability r.applicability hours) = true

/-- **The rates that some order of the rows puts first**: of those that apply, the ones of least
rank; when none applies, the active defaults. -/
def MayChoose (rates : List RentalRate) (hours : Decimal) (r : RentalRate) : Prop :=
  r ∈ rates ∧
    ((Applies hours r ∧ ∀ r' ∈ rates, Applies hours r' → rateRank r ≤ rateRank r') ∨
      ((∀ r' ∈ rates, ¬Applies hours r') ∧ (r.isDefault && r.isActive) = true))

/-- Only one rate may be chosen, if any. -/
def OneChoice (rates : List RentalRate) (hours : Decimal) : Prop :=
  ∀ r r', MayChoose rates hours r → MayChoose rates hours r' → r = r'

theorem MayChoose.perm (h : rates.Perm rates') (hr : MayChoose rates hours r) :
    MayChoose rates' hours r := by
  obtain ⟨hmem, hr⟩ := hr
  have hback : ∀ r' ∈ rates', r' ∈ rates := fun r' h' => h.mem_iff.mpr h'
  refine ⟨h.mem_iff.mp hmem, hr.imp ?_ ?_⟩
  · rintro ⟨happlies, hleast⟩
    exact ⟨happlies, fun r' h' => hleast r' (hback r' h')⟩
  · rintro ⟨hnone, hdefault⟩
    exact ⟨fun r' h' => hnone r' (hback r' h'), hdefault⟩

/-- What is picked may be chosen. -/
theorem mayChoose_of_pick (h : pickRateForLine rates hours false = some r) :
    MayChoose rates hours r := by
  have hmem := PricingService.pickRateForLine_mem h
  unfold pickRateForLine at h
  dsimp only at h
  set eligible := rates.filter fun r => r.isActive && matchesApplicability r.applicability hours
    with heligible
  have hperm := List.perm_insertionSort (fun a b => rateRank a ≤ rateRank b) eligible
  have hsorted := List.pairwise_insertionSort (fun a b => rateRank a ≤ rateRank b) eligible
  split at h
  · rename_i chosen rest hsort
    cases h
    rw [hsort] at hperm hsorted
    have happlies := hperm.mem_iff.mp List.mem_cons_self
    refine ⟨hmem, Or.inl ⟨(List.mem_filter.mp happlies).2, fun r' hr' h' => ?_⟩⟩
    rcases List.mem_cons.mp (hperm.mem_iff.mpr (List.mem_filter.mpr ⟨hr', h'⟩)) with rfl | hrest
    · exact le_refl _
    · exact (List.pairwise_cons.mp hsorted).1 r' hrest
  · rename_i hsort
    have hnil : eligible = [] := by
      rw [hsort] at hperm
      exact hperm.nil_eq.symm
    have hnone : ∀ r' ∈ rates, ¬Applies hours r' := List.filter_eq_nil_iff.mp hnil
    split at h
    · rename_i found hfound
      cases h
      have hdefault := List.find?_some hfound
      exact ⟨hmem, Or.inr ⟨hnone, hdefault⟩⟩
    · cases h

/-- Something is picked where something may be chosen. -/
theorem pick_ne_none (h : MayChoose rates hours r) : pickRateForLine rates hours false ≠ none := by
  unfold pickRateForLine
  dsimp only
  split
  · exact Option.some_ne_none _
  · rename_i hsort
    obtain ⟨hmem, ⟨happlies, -⟩ | ⟨-, hdefault⟩⟩ := h
    · have hin : r ∈ (rates.filter fun r => r.isActive && matchesApplicability r.applicability
          hours).insertionSort fun a b => rateRank a ≤ rateRank b :=
        (List.mem_insertionSort _).mpr (List.mem_filter.mpr ⟨hmem, happlies⟩)
      rw [hsort] at hin
      cases hin
    · split
      · exact Option.some_ne_none _
      · rename_i hfind
        exact absurd hdefault (List.find?_eq_none.mp hfind r hmem)

/-- A rate that may be chosen is picked where it comes first. -/
theorem pick_first (h : MayChoose (r :: rates) hours r) :
    pickRateForLine (r :: rates) hours false = some r := by
  obtain ⟨-, ⟨happlies, hleast⟩ | ⟨hnone, hdefault⟩⟩ := h
  · have hhead : (r :: rates.filter fun r => r.isActive && matchesApplicability r.applicability
        hours).insertionSort (fun a b => rateRank a ≤ rateRank b) =
          r :: (rates.filter fun r => r.isActive && matchesApplicability r.applicability
            hours).insertionSort fun a b => rateRank a ≤ rateRank b := by
      refine List.insertionSort_cons_of_forall_rel _ fun b hb => ?_
      obtain ⟨hmem, hb⟩ := List.mem_filter.mp hb
      exact hleast b (List.mem_cons_of_mem r hmem) hb
    have hfilter := List.filter_cons_of_pos (p := fun r : RentalRate => r.isActive &&
      matchesApplicability r.applicability hours) (l := rates) happlies
    simp only [pickRateForLine, hfilter, hhead]
  · have hfilter : (r :: rates).filter (fun r => r.isActive && matchesApplicability r.applicability
        hours) = [] := List.filter_eq_nil_iff.mpr hnone
    simp only [pickRateForLine, hfilter, List.insertionSort_nil, List.find?_cons, hdefault]

/-- **The pick is the same in every order of the rates exactly when one rate may be chosen.** -/
theorem pickRateForLine_perm_iff :
    (∀ rates', rates'.Perm rates →
      pickRateForLine rates' hours false = pickRateForLine rates hours false) ↔
      OneChoice rates hours := by
  constructor
  · intro hsame
    have hpicked : ∀ {r}, MayChoose rates hours r →
        pickRateForLine rates hours false = some r := by
      intro r hr
      obtain ⟨before, after, rfl⟩ := List.mem_iff_append.mp hr.1
      have hperm : (r :: (before ++ after)).Perm (before ++ r :: after) :=
        List.perm_middle.symm
      rw [← hsame _ hperm]
      exact pick_first (hr.perm hperm.symm)
    intro r r' hr hr'
    exact Option.some.inj ((hpicked hr).symm.trans (hpicked hr'))
  · intro hone rates' hperm
    cases h : pickRateForLine rates hours false with
    | none =>
      cases h' : pickRateForLine rates' hours false with
      | none => rfl
      | some r' => exact absurd h (pick_ne_none ((mayChoose_of_pick h').perm hperm))
    | some r =>
      have hr := mayChoose_of_pick h
      cases h' : pickRateForLine rates' hours false with
      | none => exact absurd h' (pick_ne_none (hr.perm hperm.symm))
      | some r' => rw [hone r r' hr ((mayChoose_of_pick h').perm hperm)]

/-! ## 2. The orders of a query -/

/-- The rate of a room's binding: none when its template is not in use. -/
def ratesOf (db : Db) (binding : FacilityRentalRate) : List RentalRate :=
  (db.rateTemplates.filter fun t => t.id = binding.templateId && !t.isDeleted && t.isActive).map
    (toRate binding.isActive)

/-- An active binding of the room. -/
def bindsRoom (facilityId : UUID) (r : FacilityRentalRate) : Bool :=
  !r.isDeleted && r.isActive && r.facilityId = facilityId

/-- The rows of `list_active_rates_for_facility`. -/
def activeRates (db : Db) (facilityId : UUID) : List RentalRate :=
  (db.rates.filter (bindsRoom facilityId)).flatMap (ratesOf db)

theorem activeRates_perm {db : Db} {table : List FacilityRentalRate} (h : table.Perm db.rates)
    (facilityId : UUID) :
    (activeRates { db with rates := table } facilityId).Perm (activeRates db facilityId) :=
  (h.filter _).flatMap_right _

/-- A template has one row, so a binding has one rate at most. -/
theorem ratesOf_single {db : Db} (hkeys : (db.rateTemplates.map FacilityRentalRateTemplate.id).Nodup)
    {binding : FacilityRentalRate} (hr : r ∈ ratesOf db binding) : ratesOf db binding = [r] := by
  obtain ⟨template, htemplate, rfl⟩ := List.mem_map.mp hr
  obtain ⟨hmem, hp⟩ := List.mem_filter.mp htemplate
  have hid : ∀ t : FacilityRentalRateTemplate,
      (t.id = binding.templateId && !t.isDeleted && t.isActive) = true →
        t.id = binding.templateId := by
    intro t ht
    simp only [Bool.and_eq_true, decide_eq_true_eq] at ht
    exact ht.1.1
  rw [ratesOf, filter_key_eq_singleton hkeys hid hmem hp, List.map_singleton]

/-- Some order of the table returns a given rate first. -/
theorem exists_order_first {db : Db}
    (hkeys : (db.rateTemplates.map FacilityRentalRateTemplate.id).Nodup) {facilityId : UUID}
    (hr : r ∈ activeRates db facilityId) :
    ∃ table rest, table.Perm db.rates ∧
      activeRates { db with rates := table } facilityId = r :: rest := by
  obtain ⟨binding, hbinding, hr⟩ := List.mem_flatMap.mp hr
  obtain ⟨hmem, hactive⟩ := List.mem_filter.mp hbinding
  obtain ⟨before, after, heq⟩ := List.mem_iff_append.mp hmem
  have hfirst : activeRates { db with rates := binding :: (before ++ after) } facilityId =
      [r] ++ ((before ++ after).filter (bindsRoom facilityId)).flatMap (ratesOf db) := by
    rw [activeRates, List.filter_cons_of_pos hactive, List.flatMap_cons]
    exact congrArg (· ++ _) (ratesOf_single hkeys hr)
  exact ⟨binding :: (before ++ after), _, heq ▸ List.perm_middle.symm, hfirst⟩

end RentalRepository

/-! ## 3. The quote -/

namespace PricingService

open RentalRepository

variable {db : Db} {t : Int}

/-- What `preview_quote` settles before it prices a line. -/
def pricingEligibility (command : PreviewQuoteCommand) : Portal DiscountEligibility := do
  raiseIf command.roomLines.isEmpty (badRequest "At least one room line is required")
  each command.roomLines checkLine
  DiscountEligibilityService.evaluate command.bookingType command.ministryId command.bookerId

/-- **The lines of the request are priced**: its checks pass and it is to be paid. -/
def ReachesPricing (db : Db) (t : Int) (command : PreviewQuoteCommand) : Prop :=
  ∃ eligibility, (pricingEligibility command).eval db t = .ok eligibility ∧
    eligibility.isFreeMinistry = false

/-- **Every order of the rates' rows leads to the same rate for each priced line, and to the same
quote.** -/
structure OrderFree (db : Db) (t : Int) (command : PreviewQuoteCommand) : Prop where
  rate : ReachesPricing db t command → ∀ line ∈ command.roomLines, ∀ table, table.Perm db.rates →
    Alike db { db with rates := table } t
      (resolveRateForRoom line.facilityId line.billedHours command.asOfDate)
  quote : ∀ table, table.Perm db.rates →
    Alike db { db with rates := table } t (previewQuote command)

/-! ### 3.1 One line -/

theorem resolveRateForRoom_eval (facilityId : UUID) (hours : Decimal) (asOf : Option Int) :
    (resolveRateForRoom facilityId hours asOf).eval db t =
      match pickRateForLine (activeRates db facilityId) hours false with
      | some rate => .ok (some rate)
      | none => (listTemplates.bind fun candidates =>
          ret (pickRateForLine candidates hours true)).eval db t := by
  have heval : (resolveRateForRoom facilityId hours asOf).eval db t =
      Prog.eval (match pickRateForLine (activeRates db facilityId) hours false with
        | some rate => (pure (some rate) : Portal (Option RentalRate))
        | none => listTemplates.bind fun candidates =>
          ret (pickRateForLine candidates hours true)) db t := rfl
  rw [heval]
  split <;> rfl

theorem resolveRateForRoom_picks {facilityId : UUID} {hours : Decimal} {asOf : Option Int}
    {rate : RentalRate} (h : pickRateForLine (activeRates db facilityId) hours false = some rate) :
    (resolveRateForRoom facilityId hours asOf).eval db t = .ok (some rate) := by
  rw [resolveRateForRoom_eval, h]

theorem resolveRateForRoom_alike {table : List FacilityRentalRate} (htable : table.Perm db.rates)
    {facilityId : UUID} {hours : Decimal} (hone : OneChoice (activeRates db facilityId) hours)
    (asOf : Option Int) :
    Alike db { db with rates := table } t (resolveRateForRoom facilityId hours asOf) := by
  have hpick := pickRateForLine_perm_iff.mpr hone _ (activeRates_perm htable facilityId)
  rw [Alike, resolveRateForRoom_eval, resolveRateForRoom_eval, hpick]
  rfl

/-- A line priced alike in every order leaves one choice. -/
theorem oneChoice_of_alike (hkeys : (db.rateTemplates.map FacilityRentalRateTemplate.id).Nodup)
    {facilityId : UUID} {hours : Decimal} {asOf : Option Int}
    (h : ∀ table, table.Perm db.rates →
      Alike db { db with rates := table } t (resolveRateForRoom facilityId hours asOf)) :
    OneChoice (activeRates db facilityId) hours := by
  have hpicked : ∀ r, MayChoose (activeRates db facilityId) hours r →
      (resolveRateForRoom facilityId hours asOf).eval db t = .ok (some r) := by
    intro r hr
    obtain ⟨table, rest, htable, hfirst⟩ := exists_order_first hkeys hr.1
    have hchoose := hr.perm (activeRates_perm htable facilityId).symm
    rw [hfirst] at hchoose
    have hpick := pick_first hchoose
    rw [← hfirst] at hpick
    exact (h table htable).trans (resolveRateForRoom_picks hpick)
  intro r r' hr hr'
  exact Option.some.inj (Except.ok.inj ((hpicked r hr).symm.trans (hpicked r' hr')))

/-! ### 3.2 The whole quote -/

theorem previewQuote_eq (command : PreviewQuoteCommand) :
    previewQuote command = (pricingEligibility command).bind (pricedQuote command) := by
  simp only [pricingEligibility, bind_eq, bind_bind]
  rfl

theorem pricingEligibility_readOnly (command : PreviewQuoteCommand) :
    ReadOnly (pricingEligibility command) :=
  ReadOnly.bind (fun _ => ReadOnly.bind (fun _ => evaluate_readOnly _ _ _)
    (ReadOnly.each checkLine_readOnly _)) (ReadOnly.raiseIf _ _)

section

variable {db' : Db} {table : List FacilityRentalRate} {command : PreviewQuoteCommand}

theorem evaluate_alike {bookingType : BookingType} {ministryId : Option UUID} {bookerId : UUID} :
    Alike db { db with rates := table } t
      (DiscountEligibilityService.evaluate bookingType ministryId bookerId) := by
  refine Alike.bind (isQualifying_readOnly _ _) ?_ fun qualifying _ => ?_
  · cases ministryId with
    | none => exact Alike.ret _
    | some ministryId =>
      refine Alike.bind (ReadOnly.select _) (Alike.select rfl) fun status _ => ?_
      split
      · exact Alike.ret _
      · exact Alike.select rfl
  · split
    · exact Alike.ret _
    · split
      · refine Alike.bind (ReadOnly.select _) (Alike.select rfl) fun rules _ => ?_
        split <;> exact Alike.ret _
      · exact Alike.ret _

/-- The checks and the discount read no rate. -/
theorem pricingEligibility_alike :
    Alike db { db with rates := table } t (pricingEligibility command) := by
  refine Alike.bind (ReadOnly.raiseIf _ _) (Alike.raiseIf _ _) fun _ _ => ?_
  refine Alike.bind (ReadOnly.each checkLine_readOnly _) ?_ fun _ _ => ?_
  · exact Alike.each checkLine_readOnly fun line _ => Alike.bind (ReadOnly.select _)
      (Alike.select rfl) fun _ _ => Alike.bind (ReadOnly.raiseIf _ _) (Alike.raiseIf _ _)
        fun _ _ => Alike.raiseIf _ _
  · exact evaluate_alike

theorem computeSurcharges_alike (h : Alike db db' t listSurcharges) :
    Alike db db' t (computeSurcharges command) := by
  unfold computeSurcharges
  split
  · exact Alike.ret _
  · exact Alike.bind (ReadOnly.select _) h fun _ _ => Alike.checked fun _ => Alike.ofExcept _

theorem quoteLine_alike {line : QuoteLine} {asOf : Option Int}
    (h : Alike db db' t (resolveRateForRoom line.facilityId line.billedHours asOf)) :
    Alike db db' t (quoteLine asOf line) := by
  refine Alike.bind (resolveRateForRoom_readOnly _ _ _) h fun rate _ => ?_
  cases rate with
  | none => exact Alike.raise _
  | some rate => exact Alike.checked fun _ => Alike.checked fun _ => Alike.ret _

/-- A quote is alike on two databases that price its lines and list its surcharges alike. -/
theorem pricedQuote_alike {eligibility : DiscountEligibility}
    (hlines : eligibility.isFreeMinistry = false → ∀ line ∈ command.roomLines,
      Alike db db' t (resolveRateForRoom line.facilityId line.billedHours command.asOfDate))
    (hsurcharges : Alike db db' t listSurcharges) :
    Alike db db' t (pricedQuote command eligibility) := by
  unfold pricedQuote
  split
  · exact Alike.ret _
  · rename_i hfree
    have hpaid := hlines (Bool.eq_false_iff.mpr hfree)
    refine Alike.bind (ReadOnly.mapEach (quoteLine_readOnly _) _) ?_ fun quoted _ => ?_
    · exact Alike.mapEach (quoteLine_readOnly _) fun line hline => quoteLine_alike (hpaid line hline)
    · refine Alike.checked fun _ => Alike.checked fun _ => Alike.checked fun _ => ?_
      refine Alike.bind (computeSurcharges_readOnly _) (computeSurcharges_alike hsurcharges)
        fun _ _ => ?_
      exact Alike.checked fun _ => Alike.checked fun _ => Alike.checked fun _ =>
        Alike.checked fun _ => Alike.ret _

end

/-- **The price does not depend on the order of the rows exactly when every priced line has one
choice**: no two of its room's rates share the least rank among those that apply, and where none
applies only one is an active default. -/
theorem previewQuote_orderFree_iff
    (hkeys : (db.rateTemplates.map FacilityRentalRateTemplate.id).Nodup)
    (command : PreviewQuoteCommand) :
    OrderFree db t command ↔ (ReachesPricing db t command → ∀ line ∈ command.roomLines,
      OneChoice (activeRates db line.facilityId) line.billedHours) := by
  constructor
  · intro hfree hreaches line hline
    exact oneChoice_of_alike hkeys (hfree.rate hreaches line hline)
  · intro hone
    have hrate : ReachesPricing db t command → ∀ line ∈ command.roomLines, ∀ table,
        table.Perm db.rates → Alike db { db with rates := table } t
          (resolveRateForRoom line.facilityId line.billedHours command.asOfDate) :=
      fun hreaches line hline table htable =>
        resolveRateForRoom_alike htable (hone hreaches line hline) _
    refine ⟨hrate, fun table htable => ?_⟩
    rw [previewQuote_eq]
    refine Alike.bind (pricingEligibility_readOnly _) pricingEligibility_alike
      fun eligibility helig => pricedQuote_alike (fun hpaid line hline => ?_) (Alike.select rfl)
    exact hrate ⟨eligibility, helig, hpaid⟩ line hline table htable

/-! ### 3.3 A room let under two rates -/

/-- What the tables' keys promise of the rates. -/
structure RatesKeyed (db : Db) : Prop where
  templateIds : (db.rateTemplates.map FacilityRentalRateTemplate.id).Nodup
  templateNames : (db.rateTemplates.map FacilityRentalRateTemplate.name).Nodup
  bindings : (db.rates.map fun r => (r.facilityId, r.templateId)).Nodup

/-- The room under two templates, at 20 and at 30 an hour; the first may be the default. -/
def roomLetTwice (isDefault : Bool) : Db :=
  { Db.oneRoom with
    rateTemplates := [
      { id := 1, name := "standard", billingUnit := "hourly", unitAmount := 20
        isDefault := isDefault },
      { id := 2, name := "evening", billingUnit := "hourly", unitAmount := 30 }]
    rates := [{ id := 1, facilityId := 3, templateId := 1 },
      { id := 2, facilityId := 3, templateId := 2 }] }

theorem roomLetTwice_keyed (isDefault : Bool) : RatesKeyed (roomLetTwice isDefault) where
  templateIds := show ([1, 2] : List UUID).Nodup by decide
  templateNames := show ["standard", "evening"].Nodup by decide
  bindings := show ([(3, 1), (3, 2)] : List (UUID × UUID)).Nodup by decide

/-- The default comes before the other template in every order. -/
theorem previewQuote_orderFree_default :
    OrderFree (roomLetTwice true) 50 (quoteHours .oneTime [1] []) := by
  refine (previewQuote_orderFree_iff (roomLetTwice_keyed true).templateIds _).mpr
    fun _ line hline => ?_
  cases List.mem_singleton.mp hline
  have hrates : activeRates (roomLetTwice true) 3 =
      [⟨true, 20, "CAD", "standard", "hourly", none, true⟩,
        ⟨true, 30, "CAD", "evening", "hourly", none, false⟩] := rfl
  have hchosen : ∀ r, MayChoose (activeRates (roomLetTwice true) 3) 1 r →
      r = ⟨true, 20, "CAD", "standard", "hourly", none, true⟩ := by
    rw [hrates]
    rintro r ⟨hmem, ⟨-, hleast⟩ | ⟨hnone, -⟩⟩
    · have hle := hleast _ List.mem_cons_self rfl
      simp only [List.mem_cons, List.not_mem_nil, or_false] at hmem
      rcases hmem with rfl | rfl
      · rfl
      · exact absurd hle (by decide)
    · exact absurd rfl (hnone _ List.mem_cons_self)
  intro r r' hr hr'
  rw [hchosen r hr, hchosen r' hr']

/-- **The price depends on the order of the rows**: under two templates of the same rank an hour
is 20 or 30. -/
theorem previewQuote_not_orderFree :
    ¬ ∀ (db : Db) (t : Int) (command : PreviewQuoteCommand), RatesKeyed db →
      OrderFree db t command := by
  intro hclaim
  have hsame := (hclaim _ 50 (quoteHours .oneTime [1] []) (roomLetTwice_keyed false)).quote
    [{ id := 2, facilityId := 3, templateId := 2 }, { id := 1, facilityId := 3, templateId := 1 }]
    (List.Perm.swap _ _ _)
  have hprices := congrArg (fun quote => quote.toOption.map Quote.quotedAmount) hsame
  revert hprices
  decide +kernel

end PricingService

end NewlifeCore
