import SlotOutcome.Random.Source

/-!
# Why a round fails

Every error ends the round. Errors are kept as causes, and their texts are made here only. An
error that leaves a feature is marked with the tag and id of that feature; a mark that is already
there stays, so that the innermost failing feature is named (`FeatureError.inFeature`).

## Main definitions

* `ParamError`, `ConfigError`, `DataError`, `FeatureError`: the causes, with their `message`.
* `ErrorKind`, `FeatureError.kind`, `FeatureError.root`: the cause without the marks.
-/

namespace SlotOutcome

/-- A parameter is missing or has the wrong type. -/
inductive ParamError where
  | missing (key : String)
  | mismatch (key expected found : String)
deriving DecidableEq, Repr

/-- The configuration of a game does not fit its features. -/
inductive ConfigError where
  | unknownType (tag : String)
  | param (error : ParamError)
  | unresolvedName (name : String)
  | invalid (text : String)
deriving DecidableEq, Repr

/-- A position, a cell or a strip is not what it should be. -/
inductive DataError where
  | positionOutOfBounds (position len : Nat)
  | cellOutOfBounds (reel row reels rows : Nat)
  | malformed (text : String)
deriving DecidableEq, Repr

/-- The category of an error. -/
inductive ErrorKind where
  | configuration
  | data
  | serialization
  | logic
  | random
  | capacity
deriving DecidableEq, Repr

/-- Why a round fails, and in which feature if that is known. -/
inductive FeatureError where
  | config (error : ConfigError)
  | data (error : DataError)
  | serialization (text : String)
  | logic (text : String)
  | draw (error : DrawError)
  /-- A list is asked for that no memory can hold. -/
  | capacity
  | inFeature (tag : String) (id : UInt32) (error : FeatureError)
deriving DecidableEq, Repr

/-- The text of a parameter error. -/
def ParamError.message : ParamError → String
  | missing key => "missing required parameter `" ++ key ++ "`"
  | mismatch key expected found =>
    "parameter `" ++ key ++ "` should be " ++ expected ++ ", found " ++ found

/-- The text of a configuration error. -/
def ConfigError.message : ConfigError → String
  | unknownType tag => "unknown feature type `" ++ tag ++ "`"
  | param error => error.message
  | unresolvedName name => "ordered trigger name `" ++ name ++ "` not found in catalog"
  | invalid text => text

/-- The text of a data error. -/
def DataError.message : DataError → String
  | positionOutOfBounds position len =>
    "position " ++ toString position ++ " outside grid of " ++ toString len ++ " cells"
  | cellOutOfBounds reel row reels rows =>
    "cell (reel " ++ toString reel ++ ", row " ++ toString row ++ ") outside " ++
      toString reels ++ "x" ++ toString rows ++ " grid"
  | malformed text => text

namespace FeatureError

/-- The text of an error, with the feature it arose in. -/
def message : FeatureError → String
  | config error => "configuration error: " ++ error.message
  | data error => "data error: " ++ error.message
  | serialization text => "serialization error: " ++ text
  | logic text => "logic error: " ++ text
  | draw error => "rng error: " ++ error.message
  | capacity => "capacity overflow"
  | inFeature tag id error => tag ++ " #" ++ toString id ++ ": " ++ error.message

/-- An error marked with the feature it left, unless a feature inside it left its mark. -/
def leaving (tag : String) (id : UInt32) : FeatureError → FeatureError
  | inFeature tag' id' error => inFeature tag' id' error
  | error => inFeature tag id error

/-- The cause without the mark of a feature. -/
def root : FeatureError → FeatureError
  | inFeature _ _ error => error.root
  | error => error

/-- The category of the cause. -/
def kind : FeatureError → ErrorKind
  | config _ => .configuration
  | data _ => .data
  | serialization _ => .serialization
  | logic _ => .logic
  | draw _ => .random
  | capacity => .capacity
  | inFeature _ _ error => error.kind

/-- Tag and id of the feature that an error is marked with. -/
def feature? : FeatureError → Option (String × UInt32)
  | inFeature tag id _ => some (tag, id)
  | _ => none

end FeatureError

instance : Coe ParamError ConfigError := ⟨.param⟩

instance : Coe ConfigError FeatureError := ⟨.config⟩

instance : Coe DataError FeatureError := ⟨.data⟩

end SlotOutcome
