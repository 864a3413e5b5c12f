import StayConnect.Iam.Tables
import Mathlib.Data.Rat.Floor
import Mathlib.Data.List.Sort

/-!
# Eligibility rules and grant tiers

The rules of a package revision and the conditions of its grant tiers are typed conditions over what is known of
the subject. Their values are JSON objects written by an operator. Every rule must pass and every doubt refuses:
an unknown type, a malformed value, or evidence that was not stated.

The reader of RFC 3339 timestamps is a parameter. Case folding is that of ASCII.
-/

namespace StayConnect.Commerce
open Iam

def trimSpace (s : String) : String :=
  String.ofList ((s.toList.dropWhile Char.isWhitespace).reverse.dropWhile Char.isWhitespace).reverse

/-- `strings.ToUpper(strings.TrimSpace(s))`. -/
def upperTrim (s : String) : String := (trimSpace s).toUpper

def lowerTrim (s : String) : String := (trimSpace s).toLower

/-- A decoded JSON value. A number is a `float64`, or a `json.Number` where the decoder keeps numbers: its integer,
when it is written without a fraction or an exponent. -/
inductive Value where
  | null
  | bool (b : Bool)
  | str (s : String)
  | float (q : ℚ)
  | number (n : Option Int)
  | arr (xs : List Value)
  | obj (fields : List (String × Value))

abbrev Fields := List (String × Value)

def Value.asString : Value → Option String
  | .str s => some s
  | _ => none

def Value.asBool : Value → Option Bool
  | .bool b => some b
  | _ => none

/-- `v[key].(string)`. -/
def Fields.str (v : Fields) (key : String) : Option String := (v.lookup key).bind Value.asString

def Fields.bool (v : Fields) (key : String) : Option Bool := (v.lookup key).bind Value.asBool

/-- An optional field: not there, there but malformed, or read. -/
inductive Field (α : Type) where
  | absent
  | malformed
  | value (a : α)

def asInt64 : Value → Option Int
  | .number (some n) => if -2 ^ 63 ≤ n ∧ n < 2 ^ 63 then some n else none
  | _ => none

def maxInt32 : Int := 2 ^ 31 - 1

/-- `parseIntField`: a non-negative whole number of any decoder. -/
def parseIntField (v : Fields) (key : String) : Field Int :=
  match v.lookup key with
  | none | some .null => .absent
  | some raw =>
    match asInt64 raw, raw with
    | some n, _ => if n < 0 ∨ maxInt32 < n then .malformed else .value n
    | none, .float q => if q.den ≠ 1 ∨ q < 0 ∨ (maxInt32 : ℚ) < q then .malformed else .value q.num
    | none, _ => .malformed

def parseTimeField (rfc3339 : String → Option Int) (v : Fields) (key : String) : Field Int :=
  match v.lookup key with
  | none => .absent
  | some (.str s) => if trimSpace s = "" then .malformed else (rfc3339 (trimSpace s)).elim .malformed .value
  | some _ => .malformed

/-- `stringSet`: the strings of an array, in upper and in lower case. -/
def stringSet : Option Value → List String
  | some (.arr xs) => xs.flatMap fun x => x.asString.elim [] fun s => [upperTrim s, lowerTrim s]
  | _ => []

inductive AuthMethod where
  | pms | voucher | account | otp | social | postStayPin | open_

def AuthMethod.text : AuthMethod → String
  | .pms => "PMS"
  | .voucher => "VOUCHER"
  | .account => "ACCOUNT"
  | .otp => "OTP"
  | .social => "SOCIAL"
  | .postStayPin => "POST_STAY_PIN"
  | .open_ => "OPEN"

/-- `SubjectKind`; a post-stay profile has none. -/
inductive SubjectKind where
  | voucher | account | principal | anonymous | stay | none
  deriving DecidableEq, Repr

def SubjectKind.text : SubjectKind → String
  | .voucher => "VOUCHER"
  | .account => "ACCOUNT"
  | .principal => "PRINCIPAL"
  | .anonymous => "ANONYMOUS"
  | .stay => "STAY"
  | .none => ""

/-- What is known of a stay; a field the PMS did not state is empty. -/
structure StayEvidence where
  interfaceID : String
  status : String
  roomType : String
  ratePlan : String
  travelAgent : String
  vip : Option Bool
  arrival : Option Int
  departure : Option Int
  evidenceVersion : Int

/-- `Nights`: whole days between the stated bounds. -/
def StayEvidence.nights (e : StayEvidence) : Option Int :=
  e.arrival.bind fun a => e.departure.bind fun d => if d - a < 0 then none else some ((d - a) / day)

structure EligibilitySubject where
  now : Int
  authMethod : AuthMethod
  kind : SubjectKind
  guestNetworkID : String
  guestNetworkLineage : List String
  clientGroupID : String
  hasPriorPurchaseOfPackage : Bool
  stay : Option StayEvidence

/-- The stay fields a rule may list values for. -/
inductive StayField where
  | roomType | travelAgent | ratePlan | pmsInterface
  deriving DecidableEq, Repr

def StayField.label : StayField → String
  | .roomType => "room_type"
  | .travelAgent => "travel_agent"
  | .ratePlan => "rate_plan"
  | .pmsInterface => "pms_interface"

inductive Refusal where
  | pmsRuleWithoutStayEvidence | pmsRuleWithoutVersionedEvidence
  | dateWindowNeedsABound | malformedDateWindow | dateWindowFromGeUntil | beforeWindow | afterWindow
  | malformedAuthMethodRule | authMethodNotAllowed
  | malformedSubjectKindRule | subjectKindNotAllowed
  | malformedPriorPurchase | priorPurchaseNeedsExactlyOne | requiresPriorPurchase | forbidsPriorPurchase
  | malformedClientGroupRule | clientGroupNotAllowed
  | malformedSiteNetworkRule | guestNetworkNotAllowed
  | malformedStayStatusRule | stayStatusUnknown | stayStatusNotMatched
  | stayLengthUnknown | stayLengthNeedsABound | malformedStayLengthRule | stayLengthMinGtMax
  | stayShorterThanMin | stayLongerThanMax
  | malformedStayField (f : StayField) | stayFieldUnknown (f : StayField) | stayFieldNotMatched (f : StayField)
  | malformedVipRule | vipUnknown | vipNotMatched
  | unknownRuleType
  deriving DecidableEq, Repr

def Refusal.text : Refusal → String
  | .pmsRuleWithoutStayEvidence => "pms_rule_without_stay_evidence"
  | .pmsRuleWithoutVersionedEvidence => "pms_rule_without_versioned_evidence"
  | .dateWindowNeedsABound => "date_window_needs_a_bound"
  | .malformedDateWindow => "malformed_date_window"
  | .dateWindowFromGeUntil => "date_window_from_ge_until"
  | .beforeWindow => "before_window"
  | .afterWindow => "after_window"
  | .malformedAuthMethodRule => "malformed_auth_method_rule"
  | .authMethodNotAllowed => "auth_method_not_allowed"
  | .malformedSubjectKindRule => "malformed_subject_kind_rule"
  | .subjectKindNotAllowed => "subject_kind_not_allowed"
  | .malformedPriorPurchase => "malformed_prior_purchase"
  | .priorPurchaseNeedsExactlyOne => "prior_purchase_needs_exactly_one"
  | .requiresPriorPurchase => "requires_prior_purchase"
  | .forbidsPriorPurchase => "forbids_prior_purchase"
  | .malformedClientGroupRule => "malformed_client_group_rule"
  | .clientGroupNotAllowed => "client_group_not_allowed"
  | .malformedSiteNetworkRule => "malformed_site_network_rule"
  | .guestNetworkNotAllowed => "guest_network_not_allowed"
  | .malformedStayStatusRule => "malformed_stay_status_rule"
  | .stayStatusUnknown => "stay_status_unknown"
  | .stayStatusNotMatched => "stay_status_not_matched"
  | .stayLengthUnknown => "stay_length_unknown"
  | .stayLengthNeedsABound => "stay_length_needs_a_bound"
  | .malformedStayLengthRule => "malformed_stay_length_rule"
  | .stayLengthMinGtMax => "stay_length_min_gt_max"
  | .stayShorterThanMin => "stay_shorter_than_min"
  | .stayLongerThanMax => "stay_longer_than_max"
  | .malformedStayField f => "malformed_" ++ f.label ++ "_rule"
  | .stayFieldUnknown f => f.label ++ "_unknown"
  | .stayFieldNotMatched f => f.label ++ "_not_matched"
  | .malformedVipRule => "malformed_vip_rule"
  | .vipUnknown => "vip_unknown"
  | .vipNotMatched => "vip_not_matched"
  | .unknownRuleType => "unknown_rule_type"

abbrev Verdict := Except Refusal Unit

def require (r : Refusal) (b : Bool) : Verdict := if b then .ok () else .error r

/-- The rule types over the evidence of a stay. -/
inductive StayRule where
  | stayStatus | stayLength | vip | field (f : StayField)
  deriving DecidableEq, Repr

inductive RuleType where
  | dateWindow | authMethod | subjectKind | priorPurchase | clientGroup | siteNetwork
  | pms (r : StayRule)
  deriving DecidableEq, Repr

def ruleTypes : List (String × RuleType) :=
  [("DATE_WINDOW", .dateWindow), ("AUTH_METHOD", .authMethod), ("SUBJECT_KIND", .subjectKind),
    ("PRIOR_PURCHASE", .priorPurchase), ("CLIENT_GROUP", .clientGroup), ("SITE_NETWORK", .siteNetwork),
    ("STAY_STATUS", .pms .stayStatus), ("STAY_LENGTH", .pms .stayLength), ("ROOM_TYPE", .pms (.field .roomType)),
    ("VIP", .pms .vip), ("TRAVEL_AGENT", .pms (.field .travelAgent)), ("PMS_INTERFACE", .pms (.field .pmsInterface)),
    ("RATE_PLAN", .pms (.field .ratePlan))]

def ruleType (ctype : String) : Option RuleType := ruleTypes.lookup (upperTrim ctype)

def StayField.key : StayField → String
  | .roomType => "room_types"
  | .travelAgent => "travel_agents"
  | .ratePlan => "rate_plans"
  | .pmsInterface => "pms_interface_ids"

def StayField.stated (e : StayEvidence) : StayField → String
  | .roomType => e.roomType
  | .travelAgent => e.travelAgent
  | .ratePlan => e.ratePlan
  | .pmsInterface => e.interfaceID

def matchStringField (set : List String) (value : String) (f : StayField) : Verdict :=
  if set.isEmpty then .error (.malformedStayField f)
  else if trimSpace value = "" then .error (.stayFieldUnknown f)
  else require (.stayFieldNotMatched f) (set.contains (upperTrim value))

def evalStayLength (nights : Int) (least most : Field Int) : Verdict :=
  match least, most with
  | .absent, .absent => .error .stayLengthNeedsABound
  | .malformed, _ | _, .malformed => .error .malformedStayLengthRule
  | .value a, .absent => require .stayShorterThanMin (a ≤ nights)
  | .absent, .value b => require .stayLongerThanMax (nights ≤ b)
  | .value a, .value b =>
    if b < a then .error .stayLengthMinGtMax
    else if nights < a then .error .stayShorterThanMin
    else require .stayLongerThanMax (nights ≤ b)

def evalPMSCondition (r : StayRule) (v : Fields) (e : StayEvidence) : Verdict :=
  match r with
  | .stayStatus =>
    let set := stringSet (v.lookup "statuses")
    if set.isEmpty then .error .malformedStayStatusRule
    else if e.status = "" then .error .stayStatusUnknown
    else require .stayStatusNotMatched (set.contains e.status.toUpper)
  | .stayLength =>
    match e.nights with
    | none => .error .stayLengthUnknown
    | some nights => evalStayLength nights (parseIntField v "min_nights") (parseIntField v "max_nights")
  | .field f => matchStringField (stringSet (v.lookup f.key)) (f.stated e) f
  | .vip =>
    match Fields.bool v "is_vip" with
    | none => .error .malformedVipRule
    | some want => e.vip.elim (.error .vipUnknown) fun vip => require .vipNotMatched (vip == want)

/-- `DATE_WINDOW`: the upper bound is exclusive. -/
def evalDateWindow (now : Int) (start stop : Field Int) : Verdict :=
  match start, stop with
  | .absent, .absent => .error .dateWindowNeedsABound
  | .malformed, _ | _, .malformed => .error .malformedDateWindow
  | .value a, .absent => require .beforeWindow (a ≤ now)
  | .absent, .value b => require .afterWindow (now < b)
  | .value a, .value b =>
    if b ≤ a then .error .dateWindowFromGeUntil
    else if now < a then .error .beforeWindow
    else require .afterWindow (now < b)

def evalListed (set : List String) (value : String) (malformed refused : Refusal) : Verdict :=
  if set.isEmpty then .error malformed else require refused (set.contains value)

/-- `PRIOR_PURCHASE`: exactly one of the two switches. -/
def evalPriorPurchase (v : Fields) (prior : Bool) : Verdict :=
  let requires := Fields.bool v "requires_prior"
  let forbids := Fields.bool v "forbids_prior"
  if ((v.lookup "requires_prior").isSome && requires.isNone) || ((v.lookup "forbids_prior").isSome && forbids.isNone) then
    .error .malformedPriorPurchase
  else if requires.getD false = forbids.getD false then .error .priorPurchaseNeedsExactlyOne
  else if requires.getD false && !prior then .error .requiresPriorPurchase
  else require .forbidsPriorPurchase (!(forbids.getD false && prior))

def evalClientGroup (v : Fields) (group : String) : Verdict :=
  let ids := stringSet (v.lookup "group_ids")
  let pub := (Fields.bool v "public").getD false
  if ids.isEmpty && !pub then .error .malformedClientGroupRule
  else if group = "" then require .clientGroupNotAllowed pub
  else require .clientGroupNotAllowed (ids.contains (lowerTrim group))

/-- `SITE_NETWORK`: the network itself, or one it continues. -/
def evalSiteNetwork (v : Fields) (network : String) (lineage : List String) : Verdict :=
  let set := stringSet (v.lookup "guest_network_ids")
  if set.isEmpty then .error .malformedSiteNetworkRule
  else require .guestNetworkNotAllowed
    (set.contains (lowerTrim network) || lineage.any fun prior => set.contains (lowerTrim prior))

section
variable (rfc3339 : String → Option Int)

def evalTypedCondition (ctype : String) (v : Fields) (s : EligibilitySubject) : Verdict :=
  match ruleType ctype with
  | some (.pms r) =>
    match s.stay with
    | none => .error .pmsRuleWithoutStayEvidence
    | some e => if e.evidenceVersion ≤ 0 then .error .pmsRuleWithoutVersionedEvidence else evalPMSCondition r v e
  | some .dateWindow => evalDateWindow s.now (parseTimeField rfc3339 v "from") (parseTimeField rfc3339 v "until")
  | some .authMethod =>
    evalListed (stringSet (v.lookup "methods")) s.authMethod.text .malformedAuthMethodRule .authMethodNotAllowed
  | some .subjectKind =>
    evalListed (stringSet (v.lookup "kinds")) s.kind.text .malformedSubjectKindRule .subjectKindNotAllowed
  | some .priorPurchase => evalPriorPurchase v s.hasPriorPurchaseOfPackage
  | some .clientGroup => evalClientGroup v s.clientGroupID
  | some .siteNetwork => evalSiteNetwork v s.guestNetworkID s.guestNetworkLineage
  | none => .error .unknownRuleType

structure EligibilityRule where
  type : String
  value : Fields

structure GrantTier where
  order : Int
  value : Fields

/-- `EvaluatePackageEligible`: all rules must pass; the first that does not is the reason. -/
def evaluatePackageEligible : List EligibilityRule → EligibilitySubject → Verdict
  | [], _ => .ok ()
  | r :: rest, s =>
    match evalTypedCondition rfc3339 r.type r.value s with
    | .ok () => evaluatePackageEligible rest s
    | .error reason => .error reason

/-- A tier without a `match` is unconditional; a `match` that is no condition never matches. -/
def GrantTier.matches (t : GrantTier) (s : EligibilitySubject) : Bool :=
  match t.value.lookup "match" with
  | none => true
  | some (.obj cond) =>
    let ctype := (Fields.str cond "type").getD ""
    trimSpace ctype ≠ "" && (evalTypedCondition rfc3339 ctype cond s).isOk
  | some _ => false

def firstMatchTier (tiers : List GrantTier) (s : EligibilitySubject) : Option GrantTier :=
  (tiers.insertionSort fun a b => a.order ≤ b.order).find? fun t => t.matches rfc3339 s

end

/-- `PriorPurchasePolicy`: no window when `withinHours` is 0. -/
structure PriorPurchasePolicy where
  withinHours : Int
  alsoByDevice : Bool

/-- `PriorPurchasePolicyOf`, by the first rule of the type. -/
def priorPurchasePolicyOf (rules : List EligibilityRule) (priceMinor : Int) : Option PriorPurchasePolicy :=
  (rules.find? fun r => upperTrim r.type = "PRIOR_PURCHASE").map fun r =>
    { withinHours := match parseIntField r.value "within_hours" with
        | .value n => n
        | .absent | .malformed => 0
      alsoByDevice := (Fields.bool r.value "also_by_device").getD (priceMinor = 0) }

/-- `ForSubject`: for a voucher the device does not count. -/
def PriorPurchasePolicy.forSubject (p : PriorPurchasePolicy) (k : SubjectKind) : PriorPurchasePolicy :=
  if k = .voucher then { p with alsoByDevice := false } else p

end StayConnect.Commerce
