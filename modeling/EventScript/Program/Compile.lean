/-
Compiling. Every call is looked up, its arguments are checked and read, and the branches of
a condition are compiled in turn; the first error refuses the whole program. The recursion
is on the levels of nesting that are still allowed, so the limit is what makes it end.
-/
import EventScript.Program.Registry

namespace EventScript

namespace Program

/-- A compiler of one branch: its name and its entries. -/
abbrev BranchCompiler := String → List Json → Except ArgsError (List Step)

/-- A branch that may be missing. -/
def compileBranch? (compile : BranchCompiler) (branch : String) :
    Option (List Json) → Except ArgsError (Option (List Step))
  | none => .ok none
  | some entries => (compile branch entries).map some

/-- The step that a draft and the compiled branches make. -/
def bindDraft (compile : BranchCompiler) (call : Call) : Draft → Except ArgsError Step
  | .action a => .ok (.action call a)
  | .condition d => do
    let zero ← compileBranch? compile "branch_0" d.branch0
    let one ← compileBranch? compile "branch_1" d.branch1
    return .branch call d.condition zero one

/-- The step of a call to a known instruction. -/
def bind (compile : BranchCompiler) (spec : InstructionSpec) (call : Call) :
    Except ArgsError Step :=
  match spec.draft call.args with
  | .error defect => .error (.defect defect)
  | .ok d => bindDraft compile call d

/-- The step of the call at a position. -/
def compileCall (r : Registry) (compile : BranchCompiler) (position : Nat) (call : Call) :
    Except CompileError Step :=
  match r.find? call.name with
  | none => .error (.unknown position call.name)
  | some spec => (bind compile spec call).mapError (.invalid position call.name)

/-- The steps of calls that start at a position. -/
def compileFrom (r : Registry) (compile : BranchCompiler) (position : Nat) :
    List Call → Except CompileError (List Step)
  | [] => .ok []
  | call :: rest => do
    let step ← compileCall r compile position call
    let steps ← compileFrom r compile (position + 1) rest
    return step :: steps

/-- The compiler of branches when so many levels may still be opened. -/
def branchCompiler (r : Registry) : (levels : Nat) → BranchCompiler
  | 0 => fun branch _ => .error (.tooDeep branch r.branchLimit)
  | levels + 1 => fun branch entries =>
    match Document.entryCalls entries with
    | .error problems => .error (.entries branch problems)
    | .ok calls =>
      (compileFrom r (branchCompiler r levels) 0 calls).mapError (.nested branch)

/-- The steps of calls that stand inside so many branches. -/
def compileCalls (r : Registry) (calls : List Call) (depth : Nat) :
    Except CompileError (List Step) :=
  compileFrom r (branchCompiler r (r.branchLimit - depth)) 0 calls

/-- The program of a document. -/
def compile (r : Registry) (d : Document) : Except CompileError Program :=
  (compileCalls r d.program 0).map Program.mk

/-- The document and the program of a source text. -/
def ofSource (r : Registry) (source : String) : Except ProgramError (Document × Program) :=
  match Document.parse source with
  | .error problems => .error (.parse problems)
  | .ok d => match compile r d with
    | .error e => .error (.compile e)
    | .ok p => .ok (d, p)

end Program

/-- What is wrong with arguments of an instruction called inside so many branches. -/
def InstructionSpec.bindError? (s : InstructionSpec) (r : Registry)
    (args : Option Json.Object) (depth : Nat) : Option ArgsError :=
  match Program.bind (Program.branchCompiler r (r.branchLimit - depth)) s ⟨s.name, args⟩ with
  | .ok _ => none
  | .error e => some e

end EventScript
