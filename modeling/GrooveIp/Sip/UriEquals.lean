import Mathlib.Tactic.Tauto
import GrooveIp.Sip.Escapes

/-!
# Comparing two SIP URIs

`belle_sip_uri_equals` (`belle_sip_uri_impl.c:243–379`) and the lookups of
`belle_sip_parameters.c:66–84` it uses. The rules it quotes ask for the password, for all parameters
that both URIs have and for the headers; it looks at neither the password nor the headers, and it
looks a parameter up by the bytes of the pair instead of by its name.
-/

namespace GrooveIp.Sip

open Lib List

/-! ### URIs -/

/-- `belle_sip_param_pair_t` (`belle_sip_internal.h:471–475`). -/
structure BelleSipParamPair where
  name : List UInt8
  value : Option (List UInt8)
  deriving DecidableEq, Repr

/-- `(const char *)pair`: the first member of the structure is `int ref`, which `belle_sip_new0`
sets to zero and nothing counts. -/
def BelleSipParamPair.asString (_ : BelleSipParamPair) : List UInt8 := cString [0, 0, 0, 0]

/-- `belle_sip_uri_t` (`belle_sip_uri_impl.c:44–52`). -/
structure BelleSipUri where
  params : List BelleSipParamPair
  secure : UInt32
  user : Option (List UInt8)
  userPassword : Option (List UInt8)
  host : Option (List UInt8)
  port : Int
  headerList : List BelleSipParamPair
  deriving DecidableEq, Repr

/-! ### Comparisons -/

/-- A letter in upper case. -/
def upperCase (c : UInt8) : UInt8 := if c < 0x7B && c > 0x60 then c - 0x20 else c

theorem bctbxGetChar_nil (stale : UInt8) : bctbxGetChar stale [] = (0, 1) := rfl

/-- The loop of `uri_strcmp`, from two places on. -/
def uriStrcmpLoop (staleA staleB : List UInt8 → UInt8) (caseSensitive : Bool)
    (a b : List UInt8) : Bool :=
  let readA := bctbxGetChar (staleA a) a
  let readB := bctbxGetChar (staleB b) b
  let charA := if caseSensitive then readA.1 else upperCase readA.1
  let charB := if caseSensitive then readB.1 else upperCase readB.1
  if charA ≠ charB then true
  else if charA = 0 ∨ charB = 0 then false
  else uriStrcmpLoop staleA staleB caseSensitive (a.drop readA.2) (b.drop readB.2)
  termination_by a.length
  decreasing_by next _ hnul =>
    rw [length_drop]
    refine Nat.sub_lt (length_pos_iff.mpr ?_) (bctbxGetChar_pos _ _)
    rintro rfl
    refine hnul (.inl ?_)
    cases caseSensitive <;> rfl

/-- `uri_strcmp` (`belle_sip_uri_impl.c:243–268`), as whether it is not zero. -/
def uriStrcmp (staleA staleB : List UInt8 → UInt8) (a b : Option (List UInt8))
    (caseSensitive : Bool) : Bool :=
  match a, b with
  | none, none => false
  | some a, some b => uriStrcmpLoop staleA staleB caseSensitive a b
  | _, _ => true

/-- `strcasecmp(a, b) == 0`, in the C locale. -/
def strcaseEqual (a b : List UInt8) : Bool := a.map upperCase == b.map upperCase

/-- `belle_sip_parameters_get_parameter_base`: the value of the first pair that passes. -/
def belleSipParametersGetParameterBase (params : List BelleSipParamPair)
    (func : BelleSipParamPair → Bool) : Option (List UInt8) :=
  match params.find? func with
  | some pair => pair.value
  | none => none

/-- `belle_sip_parameters_get_parameter`. -/
def belleSipParametersGetParameter (params : List BelleSipParamPair) (name : List UInt8) :
    Option (List UInt8) :=
  belleSipParametersGetParameterBase params fun pair => pair.name == name

/-- `belle_sip_parameters_get_case_parameter`. -/
def belleSipParametersGetCaseParameter (params : List BelleSipParamPair) (name : List UInt8) :
    Option (List UInt8) :=
  belleSipParametersGetParameterBase params fun pair => strcaseEqual pair.name name

/-- The parameters of the five `PARAM_CASE_CMP`. -/
def comparedParameters : List (List UInt8) :=
  [bytesOf "transport", bytesOf "user", bytesOf "ttl", bytesOf "method", bytesOf "maddr"]

section Equals

variable (staleA staleB : List UInt8 → UInt8)

/-- `IS_EQUAL`. -/
def isEqual (a b : Option (List UInt8)) : Bool := !uriStrcmp staleA staleB a b true

/-- `IS_EQUAL_CASE`. -/
def isEqualCase (a b : Option (List UInt8)) : Bool := !uriStrcmp staleA staleB a b false

/-- `PARAM_CASE_CMP`, as whether it goes on. -/
def paramCaseCmp (uriA uriB : BelleSipUri) (param : List UInt8) : Bool :=
  isEqualCase staleA staleB (belleSipParametersGetCaseParameter uriA.params param)
    (belleSipParametersGetCaseParameter uriB.params param)

/-- `belle_sip_uri_equals` (`belle_sip_uri_impl.c:287–379`). -/
def belleSipUriEquals (uriA uriB : BelleSipUri) : Bool :=
  if uriA.secure ≠ uriB.secure then false
  else if !isEqual staleA staleB uriA.user uriB.user then false
  else if !isEqualCase staleA staleB uriA.host uriB.host then false
  else if uriA.port ≠ uriB.port then false
  else if !comparedParameters.all (paramCaseCmp staleA staleB uriA uriB) then false
  else uriA.params.all fun data =>
    match belleSipParametersGetParameter uriB.params data.asString with
    | some bParam => isEqualCase staleB staleA (some bParam) (some data.asString)
    | none => true

end Equals

/-! ### The rules -/

/-- Two texts that differ in case at most, or that are both missing. -/
def SameIgnoringCase (a b : Option (List UInt8)) : Prop :=
  a.map (List.map upperCase) = b.map (List.map upperCase)

/-- The first parameter of a name, whatever its case. -/
def parameterNamed (params : List BelleSipParamPair) (name : List UInt8) :
    Option BelleSipParamPair :=
  params.find? fun pair => strcaseEqual pair.name name

/-- A parameter that is missing in both lists, or the same in both. -/
def SameParameter (paramsA paramsB : List BelleSipParamPair) (name : List UInt8) : Prop :=
  match parameterNamed paramsA name, parameterNamed paramsB name with
  | some pairA, some pairB => SameIgnoringCase pairA.value pairB.value
  | none, none => True
  | _, _ => False

/-- The parameters that both lists have are the same, but for those of the five names. -/
def SameOthers (paramsA paramsB : List BelleSipParamPair) : Prop :=
  ∀ pairA ∈ paramsA, ∀ pairB ∈ paramsB, strcaseEqual pairA.name pairB.name = true →
    (∀ name ∈ comparedParameters, strcaseEqual pairA.name name = false) →
    SameIgnoringCase pairA.value pairB.value

/-- A header of the one list is in the other. -/
def HeadersIn (headersA headersB : List BelleSipParamPair) : Prop :=
  ∀ headerA ∈ headersA, ∃ headerB ∈ headersB,
    strcaseEqual headerA.name headerB.name = true ∧ SameIgnoringCase headerA.value headerB.value

/-- The comparison of section 19.1.4 of RFC 3261. -/
structure UriEquivalent (uriA uriB : BelleSipUri) : Prop where
  scheme : uriA.secure = 0 ↔ uriB.secure = 0
  user : uriA.user = uriB.user
  password : uriA.userPassword = uriB.userPassword
  host : SameIgnoringCase uriA.host uriB.host
  port : uriA.port = uriB.port
  parameters : ∀ name ∈ comparedParameters, SameParameter uriA.params uriB.params name
  others : SameOthers uriA.params uriB.params
  headers : HeadersIn uriA.headerList uriB.headerList ∧ HeadersIn uriB.headerList uriA.headerList

/-- A text without NUL, which a C string has none of, and without percent signs. -/
def PlainText (text : List UInt8) : Prop := ∀ c ∈ text, c ≠ 0 ∧ c ≠ percent

instance (text : List UInt8) : Decidable (PlainText text) :=
  inferInstanceAs (Decidable (∀ c ∈ text, c ≠ 0 ∧ c ≠ percent))

/-- Pairs of plain texts. -/
def PlainPairs (pairs : List BelleSipParamPair) : Prop :=
  ∀ pair ∈ pairs, PlainText pair.name ∧ ∀ value ∈ pair.value, PlainText value

instance (pairs : List BelleSipParamPair) : Decidable (PlainPairs pairs) :=
  inferInstanceAs (Decidable (∀ pair ∈ pairs, PlainText pair.name ∧
    ∀ value ∈ pair.value, PlainText value))

/-- A URI of plain texts. -/
structure PlainUri (uri : BelleSipUri) : Prop where
  user : ∀ text ∈ uri.user, PlainText text
  password : ∀ text ∈ uri.userPassword, PlainText text
  host : ∀ text ∈ uri.host, PlainText text
  params : PlainPairs uri.params
  headers : PlainPairs uri.headerList

/-! ### What the comparisons say -/

theorem upperCase_ne_zero {c : UInt8} (hc : c ≠ 0) : upperCase c ≠ 0 := by
  unfold upperCase
  split
  · next hletter =>
    simp only [Bool.and_eq_true, decide_eq_true_eq, gt_iff_lt, UInt8.lt_iff_toNat_lt] at hletter
    intro hzero
    have hnat := congrArg UInt8.toNat hzero
    rw [UInt8.toNat_sub_of_le _ _ (UInt8.le_iff_toNat_le.mpr (by
      have hlow : (0x60 : UInt8).toNat = 96 := rfl
      have hstep : (0x20 : UInt8).toNat = 32 := rfl
      omega))] at hnat
    have hlow : (0x60 : UInt8).toNat = 96 := rfl
    have hstep : (0x20 : UInt8).toNat = 32 := rfl
    have hnul : (0 : UInt8).toNat = 0 := rfl
    omega
  · exact hc

/-- What a character is compared as. -/
def comparedAs (caseSensitive : Bool) (c : UInt8) : UInt8 :=
  if caseSensitive then c else upperCase c

variable {caseSensitive : Bool}

theorem comparedAs_eq_zero {c : UInt8} : comparedAs caseSensitive c = 0 ↔ c = 0 := by
  cases caseSensitive
  · refine ⟨fun h => Classical.byContradiction fun hc => upperCase_ne_zero hc h, ?_⟩
    rintro rfl
    rfl
  · exact Iff.rfl

variable {staleA staleB : List UInt8 → UInt8}

theorem uriStrcmpLoop_eq_false_iff {a b : List UInt8} (ha : PlainText a) (hb : PlainText b) :
    uriStrcmpLoop staleA staleB caseSensitive a b = false ↔
      a.map (comparedAs caseSensitive) = b.map (comparedAs caseSensitive) := by
  have hfirst (stale : List UInt8 → UInt8) {c : UInt8} {text : List UInt8}
      (h : PlainText (c :: text)) : bctbxGetChar (stale (c :: text)) (c :: text) = (c, 1) ∧
        comparedAs caseSensitive c ≠ 0 ∧ PlainText text := by
    obtain ⟨hc, htext⟩ := forall_mem_cons.mp h
    exact ⟨bctbxGetChar_plain _ hc.2 _, fun hzero => hc.1 (comparedAs_eq_zero.mp hzero), htext⟩
  have hnul : comparedAs caseSensitive 0 = 0 := comparedAs_eq_zero.mpr rfl
  induction a generalizing b with
  | nil =>
    rw [uriStrcmpLoop]
    cases b with
    | nil =>
      simp only [bctbxGetChar_nil]
      change (if comparedAs caseSensitive 0 ≠ comparedAs caseSensitive 0 then true
        else if comparedAs caseSensitive 0 = 0 ∨ comparedAs caseSensitive 0 = 0 then false
        else _) = false ↔ _
      rw [if_neg (not_not_intro rfl), if_pos (.inl hnul)]
      exact iff_of_true rfl trivial
    | cons d b =>
      obtain ⟨hget, hd, -⟩ := hfirst staleB hb
      simp only [hget, bctbxGetChar_nil]
      change (if comparedAs caseSensitive 0 ≠ comparedAs caseSensitive d then true else _) = false ↔
        _
      rw [hnul, if_pos hd.symm]
      simp
  | cons c a ih =>
    obtain ⟨hgetC, hc, ha⟩ := hfirst staleA ha
    rw [uriStrcmpLoop]
    cases b with
    | nil =>
      simp only [hgetC, bctbxGetChar_nil]
      change (if comparedAs caseSensitive c ≠ comparedAs caseSensitive 0 then true else _) = false ↔
        _
      rw [hnul, if_pos hc]
      simp
    | cons d b =>
      obtain ⟨hgetD, hd, hb⟩ := hfirst staleB hb
      have hrest := ih ha hb
      simp only [hgetC, hgetD]
      change (if comparedAs caseSensitive c ≠ comparedAs caseSensitive d then true
        else if comparedAs caseSensitive c = 0 ∨ comparedAs caseSensitive d = 0 then false
        else uriStrcmpLoop staleA staleB caseSensitive a b) = false ↔ _
      rw [map_cons, map_cons, List.cons.injEq]
      split
      · next hne => exact iff_of_false Bool.noConfusion fun h => hne h.1
      · next heq =>
        rw [if_neg (not_or.mpr ⟨hc, hd⟩), and_iff_right (Classical.not_not.mp heq)]
        exact hrest

theorem uriStrcmp_eq_false_iff {a b : Option (List UInt8)}
    (ha : ∀ text ∈ a, PlainText text) (hb : ∀ text ∈ b, PlainText text) :
    uriStrcmp staleA staleB a b caseSensitive = false ↔
      a.map (List.map (comparedAs caseSensitive)) =
        b.map (List.map (comparedAs caseSensitive)) := by
  cases a with
  | none => cases b <;> simp [uriStrcmp]
  | some a =>
    cases b with
    | none => simp [uriStrcmp]
    | some b =>
      rw [uriStrcmp, uriStrcmpLoop_eq_false_iff (ha a rfl) (hb b rfl), Option.map_some,
        Option.map_some, Option.some.injEq]

section Equals

variable {staleA staleB : List UInt8 → UInt8} {a b : Option (List UInt8)}

theorem isEqual_iff (ha : ∀ text ∈ a, PlainText text) (hb : ∀ text ∈ b, PlainText text) :
    isEqual staleA staleB a b = true ↔ a = b := by
  have hid : List.map (comparedAs true) = id := by
    funext text
    exact map_id text
  rw [isEqual, Bool.not_eq_true', uriStrcmp_eq_false_iff ha hb, hid, Option.map_id, id, id]

theorem isEqualCase_iff (ha : ∀ text ∈ a, PlainText text) (hb : ∀ text ∈ b, PlainText text) :
    isEqualCase staleA staleB a b = true ↔ SameIgnoringCase a b := by
  rw [isEqualCase, Bool.not_eq_true', uriStrcmp_eq_false_iff ha hb]
  rfl

end Equals

theorem plainText_of_lookup {params : List BelleSipParamPair} (h : PlainPairs params)
    (func : BelleSipParamPair → Bool) :
    ∀ text ∈ belleSipParametersGetParameterBase params func, PlainText text := by
  intro text htext
  unfold belleSipParametersGetParameterBase at htext
  split at htext
  · next pair hfind => exact (h pair (mem_of_find?_eq_some hfind)).2 text htext
  · cases htext

/-! ### The components that are compared -/

/-- The value of a parameter that is compared. -/
def comparedValue (uri : BelleSipUri) (name : List UInt8) : Option (List UInt8) :=
  belleSipParametersGetCaseParameter uri.params name

/-- The components that the function compares as the rules ask. -/
structure ComparedAlike (uriA uriB : BelleSipUri) : Prop where
  scheme : uriA.secure = 0 ↔ uriB.secure = 0
  user : uriA.user = uriB.user
  host : SameIgnoringCase uriA.host uriB.host
  port : uriA.port = uriB.port
  values : ∀ name ∈ comparedParameters,
    SameIgnoringCase (comparedValue uriA name) (comparedValue uriB name)

/-- What the function holds against two URIs though the rules do not: two ways to say that a URI is
secure, and a parameter without a name. -/
def HeldAgainst (uriA uriB : BelleSipUri) : Prop :=
  uriA.secure ≠ uriB.secure ∨ uriA.params ≠ [] ∧
    ∃ c text, belleSipParametersGetParameter uriB.params [] = some (c :: text)

/-- What the rules ask for though the function does not: the passwords, whether the five parameters
are there when they have no value, the other parameters, and the headers. -/
structure OverlookedAlike (uriA uriB : BelleSipUri) : Prop where
  password : uriA.userPassword = uriB.userPassword
  presence : ∀ name ∈ comparedParameters, (parameterNamed uriA.params name).isSome =
    (parameterNamed uriB.params name).isSome
  others : SameOthers uriA.params uriB.params
  headers : HeadersIn uriA.headerList uriB.headerList ∧ HeadersIn uriB.headerList uriA.headerList

theorem sameParameter_iff (uriA uriB : BelleSipUri) (name : List UInt8) :
    SameParameter uriA.params uriB.params name ↔
      SameIgnoringCase (comparedValue uriA name) (comparedValue uriB name) ∧
        (parameterNamed uriA.params name).isSome = (parameterNamed uriB.params name).isSome := by
  have hvalue (uri : BelleSipUri) : comparedValue uri name =
      (parameterNamed uri.params name).bind BelleSipParamPair.value := by
    unfold comparedValue belleSipParametersGetCaseParameter belleSipParametersGetParameterBase
    show _ = (uri.params.find? fun pair => strcaseEqual pair.name name).bind _
    split
    · next pair hfind => rw [hfind]; rfl
    · next hfind => rw [hfind]; rfl
  rw [hvalue, hvalue, SameParameter]
  cases parameterNamed uriA.params name <;> cases parameterNamed uriB.params name <;>
    simp [SameIgnoringCase]

theorem uriEquivalent_iff (uriA uriB : BelleSipUri) :
    UriEquivalent uriA uriB ↔ ComparedAlike uriA uriB ∧ OverlookedAlike uriA uriB := by
  constructor
  · intro h
    have hparameters (name : List UInt8) (hname : name ∈ comparedParameters) :=
      (sameParameter_iff uriA uriB name).mp (h.parameters name hname)
    exact ⟨⟨h.scheme, h.user, h.host, h.port, fun name hname => (hparameters name hname).1⟩,
      ⟨h.password, fun name hname => (hparameters name hname).2, h.others, h.headers⟩⟩
  · rintro ⟨h, h'⟩
    exact ⟨h.scheme, h.user, h'.password, h.host, h.port,
      fun name hname => (sameParameter_iff uriA uriB name).mpr ⟨h.values name hname,
        h'.presence name hname⟩, h'.others, h'.headers⟩

theorem belleSipUriEquals_iff {uriA uriB : BelleSipUri} (hA : PlainUri uriA) (hB : PlainUri uriB) :
    belleSipUriEquals staleA staleB uriA uriB = true ↔
      ComparedAlike uriA uriB ∧ ¬ HeldAgainst uriA uriB := by
  have hif (p : Prop) [Decidable p] (x : Bool) :
      (if p then false else x) = true ↔ ¬ p ∧ x = true := by split <;> simp [*]
  have hvalues : comparedParameters.all (paramCaseCmp staleA staleB uriA uriB) = true ↔
      ∀ name ∈ comparedParameters,
        SameIgnoringCase (comparedValue uriA name) (comparedValue uriB name) := by
    rw [all_eq_true]
    exact forall₂_congr fun name _ =>
      isEqualCase_iff (plainText_of_lookup hA.params _) (plainText_of_lookup hB.params _)
  have hloop : (uriA.params.all fun data =>
      match belleSipParametersGetParameter uriB.params data.asString with
      | some bParam => isEqualCase staleB staleA (some bParam) (some data.asString)
      | none => true) = true ↔ ¬ (uriA.params ≠ [] ∧
        ∃ c text, belleSipParametersGetParameter uriB.params [] = some (c :: text)) := by
    have hpair (data : BelleSipParamPair) : data.asString = [] := rfl
    simp only [hpair]
    cases hfind : belleSipParametersGetParameter uriB.params [] with
    | none => simp
    | some text =>
      have hplain : ∀ t ∈ some text, PlainText t := hfind ▸ plainText_of_lookup hB.params _
      have hnil : ∀ t ∈ some [], PlainText t := by simp [PlainText]
      have hcase : isEqualCase staleB staleA (some text) (some []) = true ↔ text = [] :=
        (isEqualCase_iff hplain hnil).trans (by simp [SameIgnoringCase])
      simp only [all_eq_true, hcase]
      cases text with
      | nil => simp
      | cons c text =>
        have hsome : ∃ c' text', some (c :: text) = some (c' :: text') := ⟨c, text, rfl⟩
        rw [and_iff_left hsome, ne_eq, Classical.not_not,
          eq_nil_iff_forall_not_mem (l := uriA.params)]
        exact forall₂_congr fun _ _ => iff_of_false (cons_ne_nil c text) id
  rw [belleSipUriEquals, hif, hif, hif, hif, hif, hloop]
  simp only [Bool.not_eq_true', Bool.not_eq_false, ne_eq, Classical.not_not, hvalues,
    isEqual_iff hA.user hB.user, isEqualCase_iff hA.host hB.host]
  constructor
  · rintro ⟨hsecure, huser, hhost, hport, hparams, hempty⟩
    exact ⟨⟨by rw [hsecure], huser, hhost, hport, hparams⟩,
      not_or.mpr ⟨not_not_intro hsecure, hempty⟩⟩
  · rintro ⟨h, hnot⟩
    obtain ⟨hsecure, hempty⟩ := not_or.mp hnot
    exact ⟨Classical.not_not.mp hsecure, h.user, h.host, h.port, h.values, hempty⟩

/-- The function follows the rules for two URIs exactly if a component that it compares differs, or
what it holds against them goes along with what it overlooks. -/
theorem belleSipUriEquals_follows_iff {staleA staleB : List UInt8 → UInt8} {uriA uriB : BelleSipUri}
    (hA : PlainUri uriA) (hB : PlainUri uriB) :
    (belleSipUriEquals staleA staleB uriA uriB = true ↔ UriEquivalent uriA uriB) ↔
      (ComparedAlike uriA uriB → (HeldAgainst uriA uriB ↔ ¬ OverlookedAlike uriA uriB)) := by
  rw [belleSipUriEquals_iff hA hB, uriEquivalent_iff]
  by_cases hcompared : ComparedAlike uriA uriB
  · simp only [hcompared, true_and, true_imp_iff]
    exact not_iff_comm.trans Iff.comm
  · simp [hcompared]

/-- A URI of a user at a host with a transport. -/
def uriOf (user host : String) (password : Option String) (name transport : String) :
    BelleSipUri where
  params := [⟨bytesOf name, some (bytesOf transport)⟩]
  secure := 0
  user := some (bytesOf user)
  userPassword := password.map bytesOf
  host := some (bytesOf host)
  port := 0
  headerList := []

/-- The function follows the rules where case is all that differs. -/
theorem belleSipUriEquals_follows_case :
    belleSipUriEquals (fun _ => 0) (fun _ => 0) (uriOf "alice" "AtLanTa.CoM" none "Transport" "tcp")
        (uriOf "alice" "atlanta.com" none "transport" "TCP") = true ↔
      UriEquivalent (uriOf "alice" "AtLanTa.CoM" none "Transport" "tcp")
        (uriOf "alice" "atlanta.com" none "transport" "TCP") := by
  refine (belleSipUriEquals_follows_iff ?_ ?_).mpr fun _ => iff_of_false ?_ (not_not_intro ?_)
  · exact ⟨by decide +kernel, by decide +kernel, by decide +kernel, by decide +kernel, by decide⟩
  · exact ⟨by decide +kernel, by decide +kernel, by decide +kernel, by decide +kernel, by decide⟩
  · rintro (hsecure | ⟨-, c, text, hempty⟩)
    · exact hsecure rfl
    · have hnone : belleSipParametersGetParameter
          (uriOf "alice" "atlanta.com" none "transport" "TCP").params [] = none := by decide +kernel
      cases hempty
  · refine ⟨rfl, by decide +kernel, fun pairA hpairA pairB hpairB _ _ => ?_, nofun, nofun⟩
    rw [mem_singleton.mp hpairA, mem_singleton.mp hpairB]
    show Option.map _ _ = Option.map _ _
    decide +kernel

/-- Two URIs that differ in the password are equal for the function. -/
theorem belleSipUriEquals_passwords :
    ¬ ∀ (staleA staleB : List UInt8 → UInt8) (uriA uriB : BelleSipUri), PlainUri uriA →
      PlainUri uriB → (belleSipUriEquals staleA staleB uriA uriB = true ↔
        UriEquivalent uriA uriB) := by
  intro h
  have hA : PlainUri (uriOf "alice" "atlanta.com" (some "one") "transport" "tcp") :=
    ⟨by decide +kernel, by decide +kernel, by decide +kernel, by decide +kernel, by decide⟩
  have hB : PlainUri (uriOf "alice" "atlanta.com" (some "two") "transport" "tcp") :=
    ⟨by decide +kernel, by decide +kernel, by decide +kernel, by decide +kernel, by decide⟩
  have hiff := h (fun _ => 0) (fun _ => 0) _ _ hA hB
  rw [belleSipUriEquals_iff hA hB] at hiff
  have hequivalent := hiff.mp ⟨⟨Iff.rfl, rfl, rfl, rfl, fun _ _ => rfl⟩, ?_⟩
  · have hdiffer : bytesOf "one" ≠ bytesOf "two" := by decide +kernel
    exact hdiffer (Option.some.inj hequivalent.password)
  · rintro (hsecure | ⟨-, c, text, hempty⟩)
    · exact hsecure rfl
    · have hnone : belleSipParametersGetParameter
          (uriOf "alice" "atlanta.com" (some "two") "transport" "tcp").params [] = none := by
        decide +kernel
      cases hempty

end GrooveIp.Sip
