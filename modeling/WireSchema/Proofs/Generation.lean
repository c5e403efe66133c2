import WireSchema.Generation
import WireSchema.Proofs.Outcome

namespace WireSchema

/-! What generating comes down to for each target. -/

theorem generate_go (model : Model) (options : GoOptions) :
    generate model (.go options) =
      match resolve Go.naming model with
      | .error fault => .error (.resolution fault)
      | .ok symbols =>
          match Go.layFile model symbols options.package with
          | .error cause => .error (.render ⟨.go, cause⟩)
          | .ok file => .ok ⟨.go options, options.fileName, file.text⟩ := by
  rw [generate, model.valid, symbolsFor, Target.scoping]
  cases resolve Go.naming model with
  | error fault => rfl
  | ok symbols =>
      simp only [bind, Except.bind, renderText, goText]
      cases Go.layFile model symbols options.package <;> rfl

theorem generate_typeScript (model : Model) (options : TypeScriptOptions) :
    generate model (.typescript options) =
      match TypeScript.layFile model options.enumStyle with
      | .error cause => .error (.render ⟨.typescript, cause⟩)
      | .ok file => .ok ⟨.typescript options, options.fileName, file.text⟩ := by
  simp only [generate, model.valid, symbolsFor, Target.scoping, renderText, typeScriptText]
  cases TypeScript.layFile model options.enumStyle <;> rfl

section

variable {model : Model} {generated : GeneratedFile}

theorem generate_go_eq_ok_iff {options : GoOptions} :
    generate model (.go options) = .ok generated ↔
      ∃ symbols file, resolve Go.naming model = .ok symbols ∧
        Go.layFile model symbols options.package = .ok file ∧
        ⟨.go options, options.fileName, file.text⟩ = generated := by
  rw [generate_go]
  cases resolve Go.naming model with
  | error fault => simp
  | ok symbols => cases laid : Go.layFile model symbols options.package <;> simp [laid]

theorem generate_typeScript_eq_ok_iff {options : TypeScriptOptions} :
    generate model (.typescript options) = .ok generated ↔
      ∃ file, TypeScript.layFile model options.enumStyle = .ok file ∧
        ⟨.typescript options, options.fileName, file.text⟩ = generated := by
  rw [generate_typeScript]
  cases TypeScript.layFile model options.enumStyle <;> simp

end

end WireSchema
