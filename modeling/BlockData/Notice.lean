import BlockData.Tag.Basic
import BlockData.Version

/-!
# Notices

What the library reports beside its results: each notice is a cause with its data, and
has a severity and a message.  `Logged` pairs a value with the notices that arose on the
way to it, in order.
-/

namespace BlockData

/-- How much a notice matters, the most severe first. -/
inductive Severity where
  | warn
  | info
  | debug
  deriving DecidableEq, Repr

/-- The name of a severity. -/
def Severity.name : Severity → String
  | .warn => "warn"
  | .info => "info"
  | .debug => "debug"

/-- How far a severity is from the most severe one. -/
def Severity.rank : Severity → Nat
  | .warn => 0
  | .info => 1
  | .debug => 2

/-- Something worth reporting. -/
inductive Notice where
  /-- A state is of a kind that no property has. -/
  | droppedState (kind : Tag.Kind) (key identifier : String)
  /-- A block state without a name was to be upgraded. -/
  | unnamedBlockState
  | compiledSchema (version : Version) (actions : Nat)
  | loadedSchema (version : Version) (label : String)
  /-- Schemas beyond the greatest version wanted were left out. -/
  | skippedSchemas (count : Nat) (limit : Version)
  | loadedSchemas (count : Nat) (root : String)
  /-- An item has no counterpart. -/
  | missingItem (name : String)
  /-- A child is of another kind than the one to be copied. -/
  | notCopied (key : String) (expected found : Tag.Kind)
  /-- No converter is known for a block entity. -/
  | noConverter (identifier : String)
  | loadedItems (count : Nat) (path : String)
  deriving DecidableEq, Repr

namespace Notice

/-- The severity of a notice. -/
def severity : Notice → Severity
  | droppedState .. => .warn
  | unnamedBlockState => .warn
  | compiledSchema .. => .debug
  | loadedSchema .. => .debug
  | skippedSchemas .. => .info
  | loadedSchemas .. => .info
  | missingItem _ => .warn
  | notCopied .. => .debug
  | noConverter _ => .debug
  | loadedItems .. => .debug

/-- The message of a notice. -/
def message : Notice → String
  | droppedState kind key identifier =>
    s!"dropping {kind.name} state '{key}' of block {identifier}"
  | unnamedBlockState => "block state without a name cannot be upgraded"
  | compiledSchema version actions =>
    s!"compiled schema {version.text} with {actions} actions"
  | loadedSchema version label => s!"loaded upgrade schema {version.text} from {label}"
  | skippedSchemas count limit =>
    s!"skipped {count} upgrade schemas newer than {limit.text}"
  | loadedSchemas count root =>
    s!"loaded {count} block state upgrade schemas from {root}"
  | missingItem name => s!"Missing item: {name}"
  | notCopied key expected found =>
    s!"not copying '{key}': expected {expected.name}, found {found.name}"
  | noConverter identifier => s!"no block entity rewriter for {identifier}"
  | loadedItems count path => s!"loaded {count} item mappings from {path}"

end Notice

/-- A value with the notices that arose on the way to it. -/
structure Logged (α : Type) where
  value : α
  notices : List Notice
  deriving DecidableEq, Repr

namespace Logged

variable {α β : Type}

/-- Report one notice. -/
def note (notice : Notice) : Logged Unit := ⟨(), [notice]⟩

/-- Report notices in order. -/
def noteAll (notices : List Notice) : Logged Unit := ⟨(), notices⟩

instance : Monad Logged where
  pure value := ⟨value, []⟩
  bind x f := ⟨(f x.value).value, x.notices ++ (f x.value).notices⟩

@[simp] theorem value_pure (a : α) : (pure a : Logged α).value = a := rfl

@[simp] theorem notices_pure (a : α) : (pure a : Logged α).notices = [] := rfl

@[simp] theorem value_bind (x : Logged α) (f : α → Logged β) :
    (x >>= f).value = (f x.value).value := rfl

@[simp] theorem notices_bind (x : Logged α) (f : α → Logged β) :
    (x >>= f).notices = x.notices ++ (f x.value).notices := rfl

@[simp] theorem value_map (f : α → β) (x : Logged α) : (f <$> x).value = f x.value := rfl

@[simp] theorem notices_map (f : α → β) (x : Logged α) : (f <$> x).notices = x.notices := by
  simp [Functor.map]

/-- Notices add up in order, however a computation is cut into parts. -/
instance : LawfulMonad Logged :=
  LawfulMonad.mk' Logged
    (fun x => by
      cases x
      simp [Functor.map])
    (fun a f => by
      simp only [bind, pure, List.nil_append])
    (fun x f g => by
      simp only [bind, List.append_assoc])

/-- The values of a list of computations, each taken once and in order. -/
theorem value_mapM (f : α → Logged β) (items : List α) :
    (items.mapM f).value = items.map fun item => (f item).value := by
  induction items with
  | nil => rfl
  | cons item rest ih => simp [List.mapM_cons, ih]

/-- The notices of a list of computations. -/
theorem notices_mapM (f : α → Logged β) (items : List α) :
    (items.mapM f).notices = items.flatMap fun item => (f item).notices := by
  induction items with
  | nil => rfl
  | cons item rest ih => simp [List.mapM_cons, ih]

end Logged
end BlockData
