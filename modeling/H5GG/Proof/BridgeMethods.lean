import H5GG.BridgeMethods
import H5GG.Library.Table
import Mathlib.Data.Rat.Lemmas

/-!
# What reaches the engine
-/

namespace H5GG
open Validation

def H5GGBridgeMethod.Accepts (method : H5GGBridgeMethod) (args : List BridgeValue) (index : Nat) :
    Prop :=
  ∀ value, args[index]? = some value →
    method.acceptsArgument index value.kind value.numberValue = true

/-- The argument at `index` is the first that the schema of the method rejects. -/
structure FirstRejected (method : H5GGBridgeMethod) (args : List BridgeValue) (index : Nat) :
    Prop where
  rejected : ¬ method.Accepts args index
  before : ∀ earlier < index, method.Accepts args earlier

/-- The engine is given the value itself, an absent one as `nil` or 0. -/
def Carried (value : Option BridgeValue) (argument : Option BridgeArgument) : Prop :=
  match value with
  | none => argument = some (.object none) ∨ argument = some (.int 0) ∨
      argument = some (.double (.finite 0))
  | some .null => argument = some (.object none)
  | some (.string text) => argument = some (.object (some (.string text)))
  | some (.array items) => argument = some (.object (some (.array items)))
  | some (.number (.finite value)) =>
      (∃ exact : Int, (exact : Rat) = value ∧ 0 ≤ exact ∧ exact ≤ 2147483647 ∧
        argument = some (.int exact)) ∨
      0 ≤ value ∧ argument = some (.double (.finite value))
  | _ => False

/-- Which calls a message leads to, and which error. -/
structure Dispatches (actions : MenuActions) (name : NSString) (args : List BridgeValue)
    (outcome : Except NSString Invocation) : Prop where
  block : ∀ count, actions.blocks name = some count → outcome =
    if count = args.length then .ok (.block name args)
    else .error (.format "Invalid argument count for " name)
  unknown : actions.blocks name = none →
    (∀ method ∈ h5ggBridgeMethods, NSString.utf8String name ≠ some (cString method.name)) →
    outcome = .error (.format "Unknown bridge method: " name)
  count : actions.blocks name = none → ∀ method ∈ h5ggBridgeMethods,
    NSString.utf8String name = some (cString method.name) →
    method.acceptsArgumentCount args.length = false →
    outcome = .error (.format "Invalid argument count for " name)
  argument : actions.blocks name = none → ∀ method ∈ h5ggBridgeMethods,
    NSString.utf8String name = some (cString method.name) →
    method.acceptsArgumentCount args.length = true →
    ∀ index, FirstRejected method args index →
    outcome = .error (.format ("Invalid argument " ++ toString (index + 1) ++ " for ") name)
  unavailable : actions.blocks name = none → ∀ method ∈ h5ggBridgeMethods,
    NSString.utf8String name = some (cString method.name) →
    method.acceptsArgumentCount args.length = true → (∀ index, method.Accepts args index) →
    actions.engine = false → outcome = .error (.ofAscii "H5GG engine is unavailable")
  engine : actions.blocks name = none → ∀ method ∈ h5ggBridgeMethods,
    NSString.utf8String name = some (cString method.name) →
    method.acceptsArgumentCount args.length = true → (∀ index, method.Accepts args index) →
    actions.engine = true → ∃ arguments : List (Option BridgeArgument),
      outcome = .ok (.engine method.selector arguments) ∧
      arguments.length = method.maximumArguments ∧
      ∀ (index : Nat) argument, arguments[index]? = some argument → Carried args[index]? argument

/-! ## The table -/

theorem names_nodup : (h5ggBridgeMethods.map (cString ·.name)).Nodup := by
  decide +kernel

theorem bridgeMethodNamed_of_mem {method : H5GGBridgeMethod} (inside : method ∈ h5ggBridgeMethods)
    {name : NSString} (named : NSString.utf8String name = some (cString method.name)) :
    h5ggBridgeMethodNamed (NSString.utf8String name) = some method := by
  rw [named, h5ggBridgeMethodNamed, Option.bind_some]
  exact find?_of_nodup_map names_nodup inside

/-- What a schema may let through to a parameter of a type. -/
def ParameterType.fits (type : ParameterType) (argument : H5GGBridgeArgument) : Bool :=
  match type with
  | .object =>
      argument.allowedKinds &&& H5GGBridgeValueKind.boolean.code == 0 &&
        argument.allowedKinds &&& H5GGBridgeValueKind.number.code == 0 &&
        argument.allowedKinds &&& H5GGBridgeValueKind.object.code == 0
  | .int =>
      argument.allowedKinds == H5GGBridgeValueKind.number.code && argument.integerOnly &&
        (argument.minimum.any (0 ≤ ·) && argument.maximum.any (· ≤ 2147483647) ||
          !argument.allowedNumbers.isEmpty &&
            argument.allowedNumbers.all fun value => 0 ≤ value && value ≤ 2147483647)
  | .double =>
      argument.allowedKinds == H5GGBridgeValueKind.number.code && argument.minimum.any (0 ≤ ·)

/-- The engine has the method, and the schema fits each of its parameters. -/
def H5GGBridgeMethod.fits (method : H5GGBridgeMethod) : Bool :=
  (h5ggEngineSignatures.lookup method.selector).any fun types =>
    types.length == method.maximumArguments &&
      method.arguments.length == method.maximumArguments &&
      (types.zip method.arguments).all fun (type, argument) => type.fits argument

theorem bridgeMethods_fit : ∀ method ∈ h5ggBridgeMethods, method.fits = true := by
  decide +kernel

/-- The engine has each method of the table, and each schema fits its parameter. -/
theorem bridgeMethod_types {method : H5GGBridgeMethod} (inside : method ∈ h5ggBridgeMethods) :
    ∃ types, h5ggEngineSignatures.lookup method.selector = some types ∧
      types.length = method.maximumArguments ∧
      ∀ (index : Nat) (type : ParameterType), types[index]? = some type →
        ∃ argument, method.arguments[index]? = some argument ∧ type.fits argument = true := by
  have fits := bridgeMethods_fit method inside
  obtain ⟨types, found, checked⟩ := (Option.any_eq_true _ _).mp fits
  simp only [Bool.and_eq_true, beq_iff_eq, List.all_eq_true] at checked
  obtain ⟨⟨count, arguments⟩, each⟩ := checked
  refine ⟨types, found, count, fun index type entry => ?_⟩
  have below : index < method.arguments.length := by
    rw [arguments, ← count]
    exact (List.getElem?_eq_some_iff.mp entry).1
  have listed := List.getElem?_eq_getElem below
  refine ⟨_, listed, each (type, method.arguments[index]) ?_⟩
  apply List.mem_of_getElem? (i := index)
  rw [List.getElem?_zip_eq_some]
  exact ⟨entry, listed⟩

/-! ## Conversion -/

theorem H5GGBridgeArgument.accepts_kind {argument : H5GGBridgeArgument}
    {kind : Option H5GGBridgeValueKind} {number : BridgeNumber}
    (accepted : argument.accepts kind number = true) :
    ∃ one, kind = some one ∧ argument.allowedKinds &&& one.code ≠ 0 := by
  unfold accepts at accepted
  split at accepted
  · cases accepted
  · rename_i allowed
    cases kind with
    | none => simp at allowed
    | some one => exact ⟨one, rfl, by simpa using allowed⟩

theorem H5GGBridgeArgument.accepts_number {argument : H5GGBridgeArgument} {number : BridgeNumber}
    (accepted : argument.accepts (some .number) number = true) :
    ∃ value, number = .finite value ∧ (argument.integerOnly = true → value.den = 1) ∧
      (∀ low, argument.minimum = some low → low ≤ value) ∧
      (∀ high, argument.maximum = some high → value ≤ high) ∧
      (argument.allowedNumbers = [] ∨ value ∈ argument.allowedNumbers) := by
  unfold accepts at accepted
  rw [if_neg (c := (some H5GGBridgeValueKind.number != some .number) = true) (by decide)] at accepted
  cases number with
  | infinite negative => simp at accepted
  | nan => simp at accepted
  | finite value =>
      simp only [Bool.if_false_left, Bool.and_eq_true, Bool.not_eq_true', Bool.or_eq_true,
        List.isEmpty_iff, List.contains_iff_mem] at accepted
      obtain ⟨-, whole, low, high, listed⟩ := accepted
      refine ⟨value, rfl, fun integer => ?_, fun bound here => ?_, fun bound here => ?_, listed⟩
      · simpa [integer] using whole
      · rw [here] at low
        exact Rat.not_lt.mp (by simpa using low)
      · rw [here] at high
        exact Rat.not_lt.mp (by simpa using high)

theorem BridgeNumber.intValue_exact {value : Rat} (whole : value.den = 1) :
    ((value.num : Int) : Rat) = value ∧ (BridgeNumber.finite value).intValue = some value.num := by
  refine ⟨(Rat.den_eq_one_iff value).mp whole, ?_⟩
  rw [intValue, whole, Nat.cast_one, Int.tdiv_one]

theorem num_bounds {value : Rat} (whole : value.den = 1) (low : 0 ≤ value)
    (high : value ≤ 2147483647) : 0 ≤ value.num ∧ value.num ≤ 2147483647 := by
  refine ⟨Rat.num_nonneg.mpr low, ?_⟩
  rw [← (Rat.den_eq_one_iff value).mp whole] at high
  exact_mod_cast high

/-- A parameter comes over as it is from an argument that a fitting schema lets through. -/
theorem carried_of_fits {type : ParameterType} {argument : H5GGBridgeArgument}
    (fits : type.fits argument = true) (value : Option BridgeValue)
    (accepted : ∀ given, value = some given →
      argument.accepts given.kind given.numberValue = true) :
    Carried value (setInvocationArgument type value) := by
  cases value with
  | none => cases type <;> simp [Carried, setInvocationArgument]
  | some given =>
      have accepted := accepted given rfl
      obtain ⟨kind, same, allowed⟩ := H5GGBridgeArgument.accepts_kind accepted
      cases type with
      | object =>
          simp only [ParameterType.fits, Bool.and_eq_true, beq_iff_eq] at fits
          obtain ⟨⟨boolean, number⟩, object⟩ := fits
          cases given with
          | null => rfl
          | string text => rfl
          | array items => rfl
          | boolean flag => cases same; exact absurd boolean allowed
          | number value => cases same; exact absurd number allowed
          | object entries => cases same; exact absurd object allowed
          | date seconds => cases same
      | int =>
          simp only [ParameterType.fits, Bool.and_eq_true, beq_iff_eq, Bool.or_eq_true] at fits
          obtain ⟨⟨kinds, integer⟩, range⟩ := fits
          rw [kinds] at allowed
          cases given with
          | number value =>
              obtain ⟨value, rfl, whole, low, high, listed⟩ :=
                H5GGBridgeArgument.accepts_number accepted
              have bounds : 0 ≤ value ∧ value ≤ 2147483647 := by
                rcases range with ⟨least, most⟩ | ⟨some', each⟩
                · obtain ⟨bottom, here, above⟩ := (Option.any_eq_true _ _).mp least
                  obtain ⟨top, there, below⟩ := (Option.any_eq_true _ _).mp most
                  exact ⟨Rat.le_trans (of_decide_eq_true above) (low bottom here),
                    Rat.le_trans (high top there) (of_decide_eq_true below)⟩
                · have among := listed.resolve_left fun empty => by simp [empty] at some'
                  simpa using List.all_eq_true.mp each value among
              obtain ⟨same, converted⟩ := BridgeNumber.intValue_exact (whole integer)
              have range := num_bounds (whole integer) bounds.1 bounds.2
              refine .inl ⟨value.num, same, range.1, range.2, ?_⟩
              simp only [setInvocationArgument, converted, Option.map_some]
          | null => cases same; exact absurd rfl allowed
          | boolean flag => cases same; exact absurd rfl allowed
          | string text => cases same; exact absurd rfl allowed
          | array items => cases same; exact absurd rfl allowed
          | object entries => cases same; exact absurd rfl allowed
          | date seconds => cases same
      | double =>
          simp only [ParameterType.fits, Bool.and_eq_true, beq_iff_eq] at fits
          obtain ⟨kinds, range⟩ := fits
          rw [kinds] at allowed
          cases given with
          | number value =>
              obtain ⟨value, rfl, -, low, -⟩ := H5GGBridgeArgument.accepts_number accepted
              obtain ⟨bound, here, above⟩ := (Option.any_eq_true _ _).mp range
              exact .inr ⟨Rat.le_trans (of_decide_eq_true above) (low bound here), rfl⟩
          | null => cases same; exact absurd rfl allowed
          | boolean flag => cases same; exact absurd rfl allowed
          | string text => cases same; exact absurd rfl allowed
          | array items => cases same; exact absurd rfl allowed
          | object entries => cases same; exact absurd rfl allowed
          | date seconds => cases same

/-! ## Dispatch -/

theorem checkArguments_ok (method : H5GGBridgeMethod) (name : NSString) (first : Nat)
    (args : List BridgeValue)
    (accepted : ∀ (index : Nat) value, args[index]? = some value →
      method.acceptsArgument (first + index) value.kind value.numberValue = true) :
    checkArguments method name first args = .ok () := by
  induction args generalizing first with
  | nil => rfl
  | cons value rest ih =>
      have now : method.acceptsArgument first value.kind value.numberValue = true :=
        accepted 0 value rfl
      rw [checkArguments, if_pos now]
      apply ih
      intro index later entry
      rw [Nat.succ_add_eq_add_succ]
      exact accepted (index + 1) later entry

theorem checkArguments_error (method : H5GGBridgeMethod) (name : NSString) (first index : Nat)
    (args : List BridgeValue)
    (before : ∀ earlier < index, ∀ value, args[earlier]? = some value →
      method.acceptsArgument (first + earlier) value.kind value.numberValue = true)
    (rejected : ∃ value, args[index]? = some value ∧
      ¬ method.acceptsArgument (first + index) value.kind value.numberValue = true) :
    checkArguments method name first args =
      .error (.format ("Invalid argument " ++ toString (first + index + 1) ++ " for ") name) := by
  induction args generalizing first index with
  | nil => simp at rejected
  | cons value rest ih =>
      cases index with
      | zero =>
          obtain ⟨_, ⟨⟩, rejected⟩ := rejected
          exact if_neg rejected
      | succ index =>
          have now : method.acceptsArgument first value.kind value.numberValue = true :=
            before 0 (Nat.succ_pos index) value rfl
          rw [checkArguments, if_pos now, ← Nat.succ_add_eq_add_succ first index]
          apply ih
          · intro earlier under later entry
            rw [Nat.succ_add_eq_add_succ]
            exact before (earlier + 1) (Nat.succ_lt_succ under) later entry
          · rw [Nat.succ_add_eq_add_succ]
            exact rejected

theorem carried_arguments {method : H5GGBridgeMethod} {types : List ParameterType}
    {args : List BridgeValue}
    (fits : ∀ (index : Nat) (type : ParameterType), types[index]? = some type →
      ∃ argument, method.arguments[index]? = some argument ∧ type.fits argument = true)
    (accepted : ∀ index, method.Accepts args index) (index : Nat)
    (argument : Option BridgeArgument)
    (entry : (invocationArguments types args)[index]? = some argument) :
    Carried args[index]? argument := by
  rw [invocationArguments, List.getElem?_mapIdx, Option.map_eq_some_iff] at entry
  obtain ⟨type, typed, rfl⟩ := entry
  obtain ⟨schema, listed, fitting⟩ := fits index type typed
  apply carried_of_fits fitting
  intro given here
  have accepted := accepted index given here
  rw [H5GGBridgeMethod.acceptsArgument, listed, Option.getD_some, Bool.and_eq_true] at accepted
  exact accepted.2

theorem dispatchMethod_spec (actions : MenuActions) (name : NSString) (args : List BridgeValue) :
    Dispatches actions name args (dispatchMethod actions name args) := by
  have reach (blocks : actions.blocks name = none) {method : H5GGBridgeMethod}
      (inside : method ∈ h5ggBridgeMethods)
      (named : NSString.utf8String name = some (cString method.name)) :
      dispatchMethod actions name args = (do
        require (method.acceptsArgumentCount args.length)
          (.format "Invalid argument count for " name)
        checkArguments method name 0 args
        require actions.engine (.ofAscii "H5GG engine is unavailable")
        let types ← accept (h5ggEngineSignatures.lookup method.selector)
          (.ofAscii ("Native method unavailable: " ++ method.name))
        return .engine method.selector (invocationArguments types args)) := by
    unfold dispatchMethod
    rw [blocks, bridgeMethodNamed_of_mem inside named]
    rfl
  constructor
  case block =>
    intro count blocks
    unfold dispatchMethod
    rw [blocks]
    by_cases same : count = args.length <;>
      simp [same, require, bind, Except.bind, pure, Except.pure]
  case unknown =>
    intro blocks absent
    have missing : h5ggBridgeMethodNamed (NSString.utf8String name) = none := by
      cases text : NSString.utf8String name with
      | none => rfl
      | some bytes =>
          rw [h5ggBridgeMethodNamed, Option.bind_some, List.find?_eq_none]
          intro method inside same
          exact absent method inside (text.trans (congrArg some (beq_iff_eq.mp same).symm))
    unfold dispatchMethod
    rw [blocks, missing]
    rfl
  case count =>
    intro blocks method inside named refused
    rw [reach blocks inside named, refused]
    rfl
  case argument =>
    intro blocks method inside named counted index first
    have failed := checkArguments_error method name 0 index args
      (fun earlier under value entry => by simpa using first.before earlier under value entry)
      (by simpa [H5GGBridgeMethod.Accepts] using first.rejected)
    rw [reach blocks inside named, counted, failed, Nat.zero_add]
    rfl
  case unavailable =>
    intro blocks method inside named counted accepted absent
    have passed := checkArguments_ok method name 0 args
      fun index value entry => by simpa using accepted index value entry
    rw [reach blocks inside named, counted, passed, absent]
    rfl
  case engine =>
    intro blocks method inside named counted accepted present
    have passed := checkArguments_ok method name 0 args
      fun index value entry => by simpa using accepted index value entry
    obtain ⟨types, found, length, fits⟩ := bridgeMethod_types inside
    refine ⟨invocationArguments types args, ?_, ?_, carried_arguments fits accepted⟩
    · rw [reach blocks inside named, counted, passed, present, found]
      rfl
    · rw [invocationArguments, List.length_mapIdx, length]

end H5GG
