import ThreescaleTests.Library.Prog

/-!
# The settings parser

A block of settings that has a `kind` is a node: the class or function that the kind
names is called with the entries of the block, after the nodes among them were
replaced by what they build. Every node also gets the global arguments.
-/

namespace ThreescaleTests.Configuration

open Library

/-! ## Values -/

/-- What a kind may name, with the parameters that a call of it accepts by name. The names in
`init` are those of `signature(method.__init__)`: for a class that takes its arguments elsewhere, in
`__new__` or as the fields of a named tuple, they are `self`, `args` and `kwargs`. A class may
announce its arguments by `expected_init_args`. -/
inductive Callable where
  | cls (name : String) (parameters init : List String) (expectedInitArgs : Option (List String))
  | function (name : String) (parameters : List String)
deriving DecidableEq

/-- A class that takes its arguments in `__init__`. -/
def Callable.ofInit (name : String) (parameters : List String) : Callable :=
  .cls name parameters ("self" :: parameters) none

/-- Settings and what is built from them; `object` is any value that is none of the others. -/
inductive Value (O : Type) where
  | str (text : String)
  | callable (callable : Callable)
  | object (object : O)
  | mapping (fields : List (String × Value O))

abbrev Block (O : Type) := List (String × Value O)

/-- Keyword arguments as the called sees them. -/
abbrev Args (O : Type) := String → Option (Value O)

variable {O σ : Type}

def hasKind (fields : Block O) : Bool := fields.any fun f => f.1 = "kind"

/-- The parameters that the callable declares. -/
def Callable.declared : Callable → List String
  | cls _ parameters _ none => parameters
  | cls _ _ _ (some expectedInitArgs) => expectedInitArgs
  | function _ parameters => parameters

/-- What `call` takes for them: without `expected_init_args` the signature of `__init__`, which for
a function object is the one of its type. -/
def Callable.expected : Callable → List String
  | cls _ _ init none => init
  | cls _ _ _ (some expectedInitArgs) => expectedInitArgs
  | function _ _ => ["args", "kwargs"]

/-! ## The parser -/

def resolve (kinds : Dict String Callable) : Option (Value O) → Except Exn Callable
  | some (.callable method) => .ok method
  | some (.str kind) => kinds.getItem kind
  | some (.object _) => .error (.keyError "")
  | some (.mapping _) | none => .error .typeError

/-- A call binds these names itself. -/
def refuse (taken names : List String) : Except Exn Unit :=
  if names.any fun name => taken.contains name then .error .typeError else .ok ()

def call (behave : Callable → Args O → Prog σ (Value O)) (method : Callable)
    (kwargs : Dict String (Value O)) : Prog σ (Value O) := do
  Prog.lift (refuse ["method"] kwargs.keys)
  behave method fun name => if name ∈ method.expected then kwargs.get? name else none

section

variable (kinds : Dict String Callable) (behave : Callable → Args O → Prog σ (Value O))
  (globals : Dict String (Value O))

mutual

/-- `SettingsParser.process` for a node; any other value stays. -/
def process : Value O → Prog σ (Value O)
  | .mapping fields =>
      if hasKind fields then do
        Prog.lift (refuse ["self", "global_kwargs"] (fields.map Prod.fst))
        let method ← Prog.lift (resolve kinds (fields.lookup "kind"))
        let processed ← processKwargs fields globals
        call behave method processed
      else pure (.mapping fields)
  | .str text => pure (.str text)
  | .callable callable => pure (.callable callable)
  | .object object => pure (.object object)

def processKwargs : Block O → Dict String (Value O) → Prog σ (Dict String (Value O))
  | [], processed => pure processed
  | (key, value) :: fields, processed =>
      if key = "kind" then processKwargs fields processed
      else do
        let result ← process value
        processKwargs fields (processed.set key result)

end

/-! ## The recursive definition -/

/-- The declared parameters, from the block or else from the globals. -/
def arguments (method : Callable) (block : Dict String (Value O)) : Args O := fun name =>
  if name ∈ method.declared then (block.get? name).or (globals.get? name) else none

mutual

/-- A node is its callable applied to what its block evaluates to. -/
def evaluate : Value O → Prog σ (Value O)
  | .mapping fields =>
      if hasKind fields then do
        let method ← Prog.lift (resolve kinds (fields.lookup "kind"))
        let block ← evaluateBlock fields
        behave method (arguments globals method (Dict.ofList block))
      else pure (.mapping fields)
  | .str text => pure (.str text)
  | .callable callable => pure (.callable callable)
  | .object object => pure (.object object)

def evaluateBlock : Block O → Prog σ (Block O)
  | [] => pure []
  | (key, value) :: fields =>
      if key = "kind" then evaluateBlock fields
      else do
        let result ← evaluate value
        let block ← evaluateBlock fields
        pure ((key, result) :: block)

end

end

/-! ## The nodes of a tree -/

mutual

/-- The blocks of the nodes, in the order in which they are built. -/
def nodes : Value O → List (Block O)
  | .mapping fields => if hasKind fields then nodesOfBlock fields ++ [fields] else []
  | .str _ | .callable _ | .object _ => []

def nodesOfBlock : Block O → List (Block O)
  | [] => []
  | (key, value) :: fields =>
      if key = "kind" then nodesOfBlock fields else nodes value ++ nodesOfBlock fields

end

def names (fields : Block O) : List String := (fields.map Prod.fst).filter fun key => key ≠ "kind"

end ThreescaleTests.Configuration
