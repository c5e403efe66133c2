import WireSchema.Go.File
import WireSchema.TypeScript.File
import WireSchema.Wire.Model

namespace WireSchema

/-! From a model to a file. -/

structure GeneratedFile where
  target : Target
  fileName : String
  content : String
deriving DecidableEq

inductive GenerationFault where
  | schema (fault : ModelFault)
  | resolution (fault : ResolutionFault)
  | render (fault : RenderFault)
deriving DecidableEq

namespace GenerationFault

def message : GenerationFault → String
  | .schema fault => s!"schema error: {fault.message}"
  | .resolution fault => s!"resolution error: {fault.message}"
  | .render fault => s!"render error: {fault.message}"

/-- The language that a fault belongs to.  A faulty schema is so in every language. -/
def language? : GenerationFault → Option Language
  | .schema _ => none
  | .resolution fault => some fault.language
  | .render fault => some fault.language

end GenerationFault

/-- The identifiers that a target needs, if its scope is flat.  Go is the only such target. -/
def symbolsFor (model : Model) (target : Target) : Except ResolutionFault (Option Symbols) :=
  match target.scoping with
  | .namespaced => .ok none
  | .flat => do
      let symbols ← resolve Go.naming model
      .ok (some symbols)

def goText (model : Model) (symbols : Symbols) (options : GoOptions) :
    Except RenderFault String :=
  match Go.layFile model symbols options.package with
  | .ok file => .ok file.text
  | .error cause => .error ⟨.go, cause⟩

def typeScriptText (model : Model) (options : TypeScriptOptions) : Except RenderFault String :=
  match TypeScript.layFile model options.enumStyle with
  | .ok file => .ok file.text
  | .error cause => .error ⟨.typescript, cause⟩

/-- The text of a model's file.  Go cannot do without symbols. -/
def renderText (model : Model) : Target → Option Symbols → Except RenderFault String
  | .go options, some symbols => goText model symbols options
  | .go _, none => .error ⟨.go, .unsupported "<package>" .missingSymbols⟩
  | .typescript options, _ => typeScriptText model options

/-- Generates the file of a model for one target.  The schema is validated here once more,
whoever made the model. -/
def generate (model : Model) (target : Target) : Except GenerationFault GeneratedFile :=
  match validate model.decls with
  | .error fault => .error (.schema (.invalid fault))
  | .ok () =>
      match symbolsFor model target with
      | .error fault => .error (.resolution fault)
      | .ok symbols =>
          match renderText model target symbols with
          | .error fault => .error (.render fault)
          | .ok content => .ok { target, fileName := target.fileName, content }

/-- Generates one file for each target, in order.  A target that fails stops no other. -/
def generateAll (model : Model) (targets : List Target) :
    List (Except GenerationFault GeneratedFile) :=
  targets.map (generate model)

def generateFromText (text : String) (target : Target) : Except GenerationFault GeneratedFile :=
  match Model.ofText text with
  | .error fault => .error (.schema fault)
  | .ok model => generate model target

end WireSchema
