import SlotOutcome.Effect.Basic
import SlotOutcome.Definition
import SlotOutcome.Round.Outcome

/-!
# Registries

A registry says which tags name which types of features. No tag names two types. A registry
checks the definitions of a game before it is played, and it reads and writes ledgers: an entry
is accepted only if its payload has the shape of its type.

## Main definitions

* `Registry`, `Registry.builtin`, `Registry.register`, `Registry.create`.
* `Registry.validate`: whether every tag of a tree is known.
* `Registry.encode`, `Registry.decode`, `Registry.encodeLedger`, `Registry.decodeLedger`.
-/

namespace SlotOutcome

/-- The types of features under their tags. -/
structure Registry where
  entries : List (String × Effect)
  /-- No tag names two types. -/
  nodup : (entries.map Prod.fst).Nodup

/-- Why a registry cannot be set up. -/
inductive RegistryError where
  | duplicate (tag : String)
  /-- The registry of the process is in use already. -/
  | alreadyInstalled
deriving DecidableEq, Repr

/-- The text of a registry error. -/
def RegistryError.message : RegistryError → String
  | duplicate tag => "duplicate feature type `" ++ tag ++ "`"
  | alreadyInstalled => "global feature registry already initialized"

namespace Registry

/-- The registry without any type. -/
def empty : Registry := ⟨[], List.nodup_nil⟩

/-- Every type of feature under its own tag. -/
def builtin : Registry where
  entries := Effect.all.map fun e => (e.tag, e)
  nodup := by decide

variable (r : Registry)

/-- The type that a tag names. -/
def find? (tag : String) : Option Effect := r.entries.lookup tag

/-- Whether a tag names a type. -/
def contains (tag : String) : Bool := (r.find? tag).isSome

/-- The registry with one more type. A tag that names a type already is refused. -/
def register (tag : String) (effect : Effect) : Except RegistryError Registry :=
  if h : tag ∈ r.entries.map Prod.fst then .error (.duplicate tag)
  else .ok ⟨(tag, effect) :: r.entries, List.nodup_cons.mpr ⟨h, r.nodup⟩⟩

/-- The type that a tag has to name. -/
def create (tag : String) : Except ConfigError Effect :=
  match r.find? tag with
  | some effect => .ok effect
  | none => .error (.unknownType tag)

/-- How many types there are. -/
def size : Nat := r.entries.length

/-- The tags in increasing order. -/
def tags : List String := (r.entries.map Prod.fst).mergeSort fun a b => a ≤ b

/-- The tags of a tree that name no type, in the order of their first nodes. -/
def unknownTags (d : Definition) : List String := d.tags.filter fun tag => !r.contains tag

/-- Whether every tag of a tree names a type. -/
def validate (d : Definition) : Except ConfigError Unit :=
  match r.unknownTags d with
  | [] => .ok ()
  | [tag] => .error (.unknownType tag)
  | tags => .error (.invalid ("unknown feature types: " ++ ", ".intercalate tags))

/-! ### Ledgers as texts -/

/-- The shape of the payloads of a tag. -/
def shapeOf (tag : String) : Except FeatureError Shape :=
  match r.find? tag with
  | some effect => .ok effect.shape
  | none => .error (.serialization ("unknown feature type `" ++ tag ++ "`"))

/-- An entry from the text of its payload. -/
def decode (tag : String) (id : UInt32) (payload : List UInt8) : Except FeatureError Entry := do
  match (← r.shapeOf tag).ofBytes? payload with
  | some data => pure ⟨id, tag, data⟩
  | none => throw (.serialization (tag ++ " #" ++ toString id ++ ": malformed payload"))

/-- The text of the payload of an entry, which has to have its shape. -/
def encode (e : Entry) : Except FeatureError String := do
  let payload := e.data.text
  let _ ← r.decode e.tag e.id payload.toUTF8.toList
  pure payload

end Registry

/-- The entry that a record describes, if its containers nest at most `depth` deep. -/
def Entry.ofTree? (depth : Nat) (t : Tree) : Option Entry :=
  match depth with
  | 0 => none
  | depth + 1 => do
    match ← t.fields? false ["Id", "Type", "Data"] with
    | [id, tag, data] => some ⟨← (← id).toUInt32?, ← (← tag).toText?, ← (← data).toJson? depth⟩
    | _ => none

/-- The entries of a ledger given by the bytes of its text. -/
def Entry.listOfBytes? (bytes : List UInt8) : Option (List Entry) := do
  (← (← Tree.ofBytes? bytes).items?).mapM (Entry.ofTree? (containerLimit - 1))

/-- The record of a ledger. -/
def Entry.listText (ledger : List Entry) : String := (Tree.arr (ledger.map Entry.toTree)).text

namespace Registry

variable (r : Registry)

/-- The text of a ledger whose payloads have their shapes. -/
def encodeLedger (ledger : List Entry) : Except FeatureError String := do
  ledger.forM fun e => do
    let _ ← r.encode e
  pure (Entry.listText ledger)

/-- The ledger of a text whose payloads have their shapes. -/
def decodeLedger (bytes : List UInt8) : Except FeatureError (List Entry) :=
  match Entry.listOfBytes? bytes with
  | some ledger => ledger.mapM fun e => r.decode e.tag e.id e.data.text.toUTF8.toList
  | none => .error (.serialization "malformed ledger")

end Registry

end SlotOutcome
