import Hydration.Text.Inspect
/-!
# What can go wrong

Every way in which a tag, a template, a component or the settings can be refused, as a cause with
the data that its message needs. A value that a message shows is kept as it is shown, since a
value of too many digits cannot be shown at all and is a failure of its own.

`Failure.kind` sorts the causes into the kinds that callers tell apart, and `Failure.message`
gives the wording.
-/
namespace Hydration

private def quoted (t : Text) : Text := '\'' :: t ++ ['\'']

/-- Faults in the arguments of a tag, met from left to right. -/
inductive ArgumentFault
  | emptyReference
  | notAReference (token : Text)
  | repeatedClause (keyword : Text)
  | missingReference
  | missingExpression (keyword : Text)
  | unterminatedLiteral (keyword literal : Text)
  deriving DecidableEq, Repr

/-- Faults in an inline literal. -/
inductive LiteralFault
  | unexpectedCharacter (c : Char)
  | unexpected (lexeme : Text)
  | expectedValue
  | expectedKey (got : Option Text)
  | expectedMark (mark : Char) (got : Option Text)
  | duplicateKey (key : Text)
  deriving DecidableEq, Repr

/-- Faults in the source of a template and in its filter expressions. -/
inductive TemplateFault
  | unreadable (before between after : Text)
  | missingVariable (expression : Text)
  | remainder (rest expression : Text)
  | underscore (name : Text)
  | unknownFilter (name : Text)
  | arity (filter : Text) (required provided : Nat)
  | emptyBlock (line : Nat)
  | emptyVariable (line : Nat)
  | unknownBlock (line : Nat) (name : Text)
  | unknownLibrary (name : Text) (known : List Text)
  | notInLibrary (name library : Text)
  deriving DecidableEq, Repr

/-- Faults in the container of a component. -/
inductive ContainerFault
  | array
  | notAMapping (type : Text)
  | missingTag
  | tagName (shown : Text)
  | attributeName (shown : Text)
  deriving DecidableEq, Repr

/-- Faults in the props of a component. -/
inductive PropsFault
  | array
  | literal (shown : Text)
  deriving DecidableEq, Repr

/-- Why one entry of the settings is refused. -/
inductive SettingReason
  | notText
  | notUtf8
  | blank
  | unknownKey
  | keyNotText
  deriving DecidableEq, Repr

/-- Where an entry of the settings stands: under a key, or under a key that is an integer. -/
inductive SettingPlace
  | key (name : Text)
  | number (n : Int)
  deriving DecidableEq, Repr

/-- An entry of the settings that is refused. -/
structure SettingDetail where
  reason : SettingReason
  place : SettingPlace
  deriving DecidableEq, Repr

/-- Faults in the settings and in the renderer that they name. -/
inductive SettingsFault
  | notADict
  | invalid (details : List SettingDetail)
  | rendererMissing (name : Text)
  | rendererNotCallable (name : Text)
  deriving DecidableEq, Repr

/-- Why no component is found behind a path. The cause of a failed import is the exception that the
module raised, which is known by its text. -/
inductive ResolutionFault
  | reference (shown : Text)
  | noFile
  | importFailed (message : Text)
  | notCallable (name : Text)
  deriving DecidableEq, Repr

/-- Why a text with percent directives cannot be filled with one value of the given type. A number
is one of the integers or of the reals; the index of a letter is counted from the start. -/
inductive DirectiveFault
  | tooFew
  | unused
  | wantsMapping
  | wantsWidth
  | wantsNumber (letter : Char) (type : Text)
  | wantsInteger (letter : Char) (type : Text)
  | wantsReal (type : Text)
  | wantsCharacter
  | widthTooBig
  | precisionTooBig
  | incomplete
  | unsupported (letter : Char) (index : Nat)
  deriving DecidableEq, Repr

/-- Why a text with fields in braces cannot be filled when nothing is given for the fields. -/
inductive FieldFault
  | single (brace : Char)
  | braceInName
  | unclosed
  | conversionEnds
  | afterConversion
  | unmatched
  | tooManyDigits
  | noPosition (n : Nat)
  | noName (name : Text)
  deriving DecidableEq, Repr

/-- A value of a type that an operation does not take. -/
inductive TypeFault
  | notAnEngine (type : Text)
  | extensionNotCallable (name : Text)
  | notSerializable (type : Text)
  | key (type : Text)
  | notIterable (type : Text)
  | notSubscriptable (type : Text)
  | notAPair (index : Nat)
  | unhashable (type : Text)
  | notReplaceable (type : Text)
  | bytesExpected
  | badOperand (type : Text)
  | relativeName (name : Text)
  | notCallable (type : Text)
  | unordered (sign : Char) (left right : Text)
  | unorderedMoments (onDays : Bool)
  | unorderedDays
  | keysNotIterable (type keys : Text)
  | arguments (message : Text)
  deriving DecidableEq, Repr

/-- A value that an operation cannot use. -/
inductive ValueFault
  | notAString (shown : Text)
  | endFed
  | tooManyDigits (count : Option Nat)
  | zonedTime
  | pairLength (index length : Nat)
  | emptyName (path : Text)
  | emptyModuleName
  | notARatio
  | beforeYearOne
  | raised (message : Text)
  deriving DecidableEq, Repr

/-- A position at which nothing stands. -/
inductive IndexFault
  | bits
  | emptyList
  deriving DecidableEq, Repr

/-- A number or a time that is out of the range of its type. -/
inductive OverflowFault
  | infiniteFloat
  | infiniteDecimal
  | infiniteRatio
  | bytesTooFew
  | negativeBytes
  | dateRange
  deriving DecidableEq, Repr

/-- Why bytes are no UTF-8. -/
inductive Utf8Reason
  | start
  | continuation
  | ending
  deriving DecidableEq, Repr

/-- The bytes from `start` on, `width` of them, that are no UTF-8; the first one is shown. -/
structure Utf8Fault where
  reason : Utf8Reason
  start : Nat
  width : Nat
  first : UInt8
  deriving DecidableEq, Repr

/-- What a decimal operation signals. -/
inductive DecimalSignal
  | invalid
  | divisionByZero
  | overflow
  deriving DecidableEq, Repr

/-- The causes of failure. -/
inductive Failure
  | argument (tag : Text) (fault : ArgumentFault)
  | literal (text : Text) (fault : LiteralFault)
  | withoutTemplate (expression : Text)
  | unexpectedArgument (argument tag : Text)
  | props (fault : PropsFault)
  | propsType (type : Text)
  | container (fault : ContainerFault)
  | reserved (name : Text)
  | template (fault : TemplateFault)
  | unfinishedTranslation
  | lookup (name : Text)
  | resolution (path : Text) (fault : ResolutionFault)
  | settings (fault : SettingsFault)
  | type (fault : TypeFault)
  | value (fault : ValueFault)
  | index (fault : IndexFault)
  | key (shown : Text)
  | missingAttribute (type name : Text)
  | overflow (fault : OverflowFault)
  | directive (fault : DirectiveFault)
  | field (fault : FieldFault)
  | utf8 (fault : Utf8Fault)
  | decimal (signal : DecimalSignal)
  | nameTooLong (path : Text)
  deriving DecidableEq, Repr

/-- The kinds of failure that callers tell apart. -/
inductive FailureKind
  | tag | conflict | container | template | propsType | resolution | configuration
  | lookup | type | value | index | key | missingAttribute | overflow | exhausted
  | decoding | file | decimal (signal : DecimalSignal)
  deriving DecidableEq, Repr

namespace ArgumentFault

/-- What is said about the tag. -/
def message : ArgumentFault → Text
  | .emptyReference => "received an empty component reference."
  | .notAReference token => "expected a component reference, got " ++ quoted token ++ "."
  | .repeatedClause keyword => "accepts a single " ++ quoted keyword ++ " clause."
  | .missingReference => "requires a component reference."
  | .missingExpression keyword => "expected an expression after " ++ quoted keyword ++ "."
  | .unterminatedLiteral keyword literal =>
    "has an unterminated literal after " ++ quoted keyword ++ ": " ++ literal

end ArgumentFault

namespace LiteralFault

/-- What is said before the literal itself is named. -/
def message : LiteralFault → Text
  | .unexpectedCharacter c => "Unexpected character " ++ Text.inspect [c]
  | .unexpected lexeme => "Unexpected " ++ quoted lexeme
  | .expectedValue => "Expected a value, reached end"
  | .expectedKey none => "Expected a key, reached end"
  | .expectedKey (some got) => "Expected a key, got " ++ quoted got
  | .expectedMark mark none => "Expected " ++ quoted [mark] ++ ", reached end"
  | .expectedMark mark (some got) => "Expected " ++ quoted [mark] ++ ", got " ++ quoted got
  | .duplicateKey key => "Duplicate key " ++ quoted key

end LiteralFault

namespace TemplateFault

/-- The wording of a fault in a template. -/
def message : TemplateFault → Text
  | .unreadable before between after =>
    "Could not parse some characters: " ++ before ++ '|' :: between ++ '|' :: after
  | .missingVariable expression => "Could not find variable at start of " ++ expression ++ "."
  | .remainder rest expression =>
    "Could not parse the remainder: " ++ quoted rest ++ " from " ++ quoted expression
  | .underscore name =>
    "Variables and attributes may not begin with underscores: " ++ quoted name
  | .unknownFilter name => "Invalid filter: " ++ quoted name
  | .arity filter required provided =>
    filter ++ " requires " ++ Text.ofNat required ++ " arguments, " ++ Text.ofNat provided ++
      " provided"
  | .emptyBlock line => "Empty block tag on line " ++ Text.ofNat line
  | .emptyVariable line => "Empty variable tag on line " ++ Text.ofNat line
  | .unknownBlock line name =>
    "Invalid block tag on line " ++ Text.ofNat line ++ ": " ++ quoted name ++
      ". Did you forget to register or load this tag?"
  | .unknownLibrary name known =>
    quoted name ++ " is not a registered tag library. Must be one of:\n" ++
      ['\n'].intercalate known
  | .notInLibrary name library =>
    quoted name ++ " is not a valid tag or filter in tag library " ++ quoted library

end TemplateFault

namespace ContainerFault

/-- The wording of a fault in a container. -/
def message : ContainerFault → Text
  | .array => "Container must be a tag name or a mapping, got an array literal."
  | .notAMapping type => "Container must be a tag name or a mapping, got " ++ type ++ "."
  | .missingTag => "Container mapping requires a \"tag\" key."
  | .tagName shown => "Invalid container tag name: " ++ shown ++ "."
  | .attributeName shown => "Invalid container attribute name: " ++ shown ++ "."

end ContainerFault

namespace SettingsFault

/-- The wording of a fault in the settings. -/
def message : SettingsFault → Text
  | .notADict => "PRERENDER must be a dict."
  | .invalid _ => "Invalid PRERENDER settings"
  | .rendererMissing name => "Cannot import component renderer " ++ quoted name ++ "."
  | .rendererNotCallable name => "Component renderer " ++ quoted name ++ " is not callable."

end SettingsFault

namespace SettingReason

/-- The wording of the reason. -/
def message : SettingReason → Text
  | .notText => "Input should be a valid string"
  | .notUtf8 => "Input should be a valid string, unable to parse raw data as a unicode string"
  | .blank => "Value error, must not be blank"
  | .unknownKey => "Extra inputs are not permitted"
  | .keyNotText => "Keys should be strings"

end SettingReason

namespace ResolutionFault

/-- The reason why a component is not found. -/
def message : ResolutionFault → Text
  | .reference shown => "reference resolved to " ++ shown
  | .noFile => "no module file found"
  | .importFailed message => "import failed: " ++ message
  | .notCallable name => "module does not expose a callable " ++ quoted name

end ResolutionFault

namespace TypeFault

/-- The wording of a fault of type. -/
def message : TypeFault → Text
  | .notAnEngine type => "Expected a Django template Engine, got " ++ type ++ "."
  | .extensionNotCallable name => "Extension " ++ quoted name ++ " must be callable."
  | .notSerializable type => "Object of type " ++ type ++ " is not JSON serializable"
  | .key type => "keys must be str, int, float, bool or None, not " ++ type
  | .notIterable type => quoted type ++ " object is not iterable"
  | .notSubscriptable type => quoted type ++ " object is not subscriptable"
  | .notAPair index =>
    "cannot convert dictionary update sequence element #" ++ Text.ofNat index ++ " to a sequence"
  | .unhashable type => "unhashable type: " ++ quoted type
  | .notReplaceable type => "replace() argument 1 must be str, not " ++ type
  | .bytesExpected => "a bytes-like object is required, not 'str'"
  | .badOperand type => "bad operand type for abs(): " ++ quoted type
  | .relativeName name =>
    "the 'package' argument is required to perform a relative import for " ++ Text.inspect name
  | .notCallable type => quoted type ++ " object is not callable"
  | .unordered sign left right =>
    quoted [sign] ++ " not supported between instances of " ++ quoted left ++ " and " ++
      quoted right
  | .unorderedDays => "can't compare datetime.datetime to datetime.date"
  | .unorderedMoments true => "can't compare offset-naive and offset-aware datetimes"
  | .unorderedMoments false => "can't compare offset-naive and offset-aware times"
  | .keysNotIterable type keys =>
    type ++ ".keys() returned a non-iterable (type " ++ keys ++ ")"
  | .arguments message => message

end TypeFault

namespace DirectiveFault

/-- Whether the value does not fit, or the text itself is at fault. -/
def kind : DirectiveFault → FailureKind
  | .widthTooBig | .precisionTooBig | .incomplete | .unsupported _ _ => .value
  | _ => .type

/-- The wording of a fault in percent directives. A letter outside printable ASCII is shown as a
question mark. -/
def message : DirectiveFault → Text
  | .tooFew => "not enough arguments for format string"
  | .unused => "not all arguments converted during string formatting"
  | .wantsMapping => "format requires a mapping"
  | .wantsWidth => "* wants int"
  | .wantsNumber letter type =>
    '%' :: letter :: " format: a real number is required, not " ++ type
  | .wantsInteger letter type =>
    '%' :: letter :: " format: an integer is required, not " ++ type
  | .wantsReal type => "must be real number, not " ++ type
  | .wantsCharacter => "%c requires int or char"
  | .widthTooBig => "width too big"
  | .precisionTooBig => "precision too big"
  | .incomplete => "incomplete format"
  | .unsupported letter index =>
    let n := letter.toNat
    let shown := if 31 ≤ n ∧ n ≤ 126 then letter else '?'
    "unsupported format character " ++ quoted [shown] ++ " (0x" ++ Text.ofHex 1 n ++
      ") at index " ++ Text.ofNat index

end DirectiveFault

namespace FieldFault

/-- Whether the text itself is at fault, or what it asks for is not there. -/
def kind : FieldFault → FailureKind
  | .noPosition _ => .index
  | .noName _ => .key
  | _ => .value

/-- The wording of a fault in fields in braces. -/
def message : FieldFault → Text
  | .single brace => "Single " ++ quoted [brace] ++ " encountered in format string"
  | .braceInName => "unexpected '\x7b' in field name"
  | .unclosed => "expected '\x7d' before end of string"
  | .conversionEnds => "end of string while looking for conversion specifier"
  | .afterConversion => "expected ':' after conversion specifier"
  | .unmatched => "unmatched '\x7b' in format spec"
  | .tooManyDigits => "Too many decimal digits in format string"
  | .noPosition n =>
    "Replacement index " ++ Text.ofNat n ++ " out of range for positional args tuple"
  | .noName name => Text.inspect name

end FieldFault

namespace ValueFault

/-- The wording of a fault of value. -/
def message : ValueFault → Text
  | .notAString shown => "Not a string literal: " ++ shown
  | .endFed => "END is not fed to the parser; call finish()"
  | .tooManyDigits count =>
    "Exceeds the limit (4300 digits) for integer string conversion" ++
      (match count with
        | none => []
        | some n => ": value has " ++ Text.ofNat n ++ " digits") ++
      "; use sys.set_int_max_str_digits() to increase the limit"
  | .zonedTime => "JSON can't represent timezone-aware times."
  | .pairLength index length =>
    "dictionary update sequence element #" ++ Text.ofNat index ++ " has length " ++
      Text.ofNat length ++ "; 2 is required"
  | .emptyName path => "PosixPath(" ++ Text.inspect path ++ ") has an empty name"
  | .emptyModuleName => "Empty module name"
  | .notARatio => "cannot convert NaN to integer ratio"
  | .beforeYearOne => "year 0 is out of range"
  | .raised message => message

end ValueFault

namespace IndexFault

/-- The wording of a fault of position. -/
def message : IndexFault → Text
  | .bits => "list index out of range"
  | .emptyList => "pop from empty list"

end IndexFault

namespace OverflowFault

/-- The wording of a fault of range. -/
def message : OverflowFault → Text
  | .infiniteFloat => "cannot convert float infinity to integer"
  | .infiniteDecimal => "cannot convert Infinity to integer"
  | .infiniteRatio => "cannot convert Infinity to integer ratio"
  | .bytesTooFew => "int too big to convert"
  | .negativeBytes => "can't convert negative int to unsigned"
  | .dateRange => "date value out of range"

end OverflowFault

namespace Utf8Fault

/-- The wording of a fault in UTF-8. -/
def message (fault : Utf8Fault) : Text :=
  let place : Text :=
    if fault.width = 1 then
      " byte 0x" ++ Text.ofHex 2 fault.first.toNat ++ " in position " ++ Text.ofNat fault.start
    else
      " bytes in position " ++ Text.ofNat fault.start ++
        '-' :: Text.ofNat (fault.start + fault.width - 1)
  let reason : Text := match fault.reason with
    | .start => "invalid start byte"
    | .continuation => "invalid continuation byte"
    | .ending => "unexpected end of data"
  "'utf-8' codec can't decode" ++ place ++ ": " ++ reason

end Utf8Fault

/-- What is said when a decimal operation signals. -/
def DecimalSignal.message : DecimalSignal → Text
  | .invalid => "[<class 'decimal.InvalidOperation'>]"
  | .divisionByZero => "[<class 'decimal.DivisionByZero'>]"
  | .overflow => "[<class 'decimal.Overflow'>]"

namespace Failure

/-- The kind of a failure. -/
def kind : Failure → FailureKind
  | .argument _ _ | .literal _ _ | .withoutTemplate _ | .unexpectedArgument _ _ | .props _ => .tag
  | .propsType _ => .propsType
  | .container _ => .container
  | .reserved _ => .conflict
  | .template _ => .template
  | .unfinishedTranslation => .exhausted
  | .lookup _ => .lookup
  | .resolution _ _ => .resolution
  | .settings _ => .configuration
  | .type _ => .type
  | .value _ => .value
  | .index _ => .index
  | .key _ => .key
  | .missingAttribute _ _ => .missingAttribute
  | .overflow _ => .overflow
  | .directive fault => fault.kind
  | .field fault => fault.kind
  | .utf8 _ => .decoding
  | .decimal signal => .decimal signal
  | .nameTooLong _ => .file

/-- The wording of a failure. -/
def message : Failure → Text
  | .argument tag fault => quoted tag ++ " tag " ++ fault.message
  | .literal text fault => fault.message ++ " in literal: " ++ text
  | .withoutTemplate expression =>
    "Cannot compile expression " ++ quoted expression ++ " without a template parser."
  | .unexpectedArgument token tag =>
    "Unexpected argument \"" ++ token ++ "\" in " ++ tag ++ " tag."
  | .props .array => "Component props must be a mapping, got an array literal."
  | .props (.literal shown) => "Component props must be a mapping, got " ++ shown ++ "."
  | .propsType t => "Component props must be a mapping, got " ++ t ++ "."
  | .container fault => fault.message
  | .reserved name =>
    "Container attribute \"" ++ name ++ "\" is reserved and cannot be overridden."
  | .template fault => fault.message
  | .unfinishedTranslation => []
  | .lookup name => "Failed lookup for key [" ++ name ++ "]"
  | .resolution path fault => "Cannot resolve component " ++ quoted path ++ ": " ++ fault.message
  | .settings fault => fault.message
  | .type fault => fault.message
  | .value fault => fault.message
  | .index fault => fault.message
  | .key shown => shown
  | .missingAttribute t name => quoted t ++ " object has no attribute " ++ quoted name
  | .overflow fault => fault.message
  | .directive fault => fault.message
  | .field fault => fault.message
  | .utf8 fault => fault.message
  | .decimal signal => signal.message
  | .nameTooLong path => "[Errno 36] File name too long: " ++ Text.inspect path

end Failure
end Hydration
