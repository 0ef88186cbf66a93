import Blockwork.Archive
import Blockwork.Session.Packages
import Blockwork.SourceFile
import Blockwork.Store.Shared

/-!
# The program of a session

The current program is replaced as a whole: by a program, by what a text holds, by what a store
keeps for a page, or by what others have shared. When one of these fails the current program
stays. It is compiled with the block types and the packages of the session.
-/

namespace Blockwork.Session

/-- Makes a program the current one. -/
def withProgram (s : Session) (program : Program) : Session :=
  { s with program }

/-- Makes the program in a text the current one. -/
def readProgram (s : Session) (text : String) : Except Failure Unit × Session :=
  match Program.ofText text with
  | .ok program => (.ok (), s.withProgram program)
  | .error failure => (.error failure, s)

/-! ### Code -/

/-- The compiler with the block types and packages of the session. -/
def compiler (s : Session) : Compiler :=
  .ofSettings s.settings s.catalogue s.available

/-- The source text of the current program. -/
def sourceText (s : Session) : Except Failure String :=
  s.compiler.sourceText s.program

/-- The source text of the current program in an archive. -/
def archive (s : Session) (package : String) : Except Failure Archive :=
  s.sourceText.map fun text => .ofSource text package s.settings.entryName

/-! ### Keeping and sharing -/

/-- Keeps the current program for a page. -/
def keepProgram {σ : Type} [Store σ] (s : Session) (store : σ) (address : String) :
    Except Failure Unit × σ :=
  s.program.keep store address

/-- Makes the program that a store keeps for a page the current one, and tells whether there is
one. -/
def recallProgram {σ : Type} [Store σ] (s : Session) (store : σ) (address : String) :
    Except Failure Bool × Session :=
  match Program.kept? store address with
  | .ok (some program) => (.ok true, s.withProgram program)
  | .ok none => (.ok false, s)
  | .error failure => (.error failure, s)

/-- Shares the current program and answers with its key. -/
def publish {σ : Type} [SharedPrograms σ] (s : Session) (shared : σ) :
    Except Failure String × σ :=
  SharedPrograms.submit shared s.program.withoutLonePosition.toText

/-- Makes the shared program under a key the current one. -/
def adopt {σ : Type} [SharedPrograms σ] (s : Session) (shared : σ) (key : String) :
    Except Failure Unit × Session × σ :=
  match SharedPrograms.fetch shared key with
  | (.ok text, shared) =>
    let (outcome, s) := s.readProgram text
    (outcome, s, shared)
  | (.error failure, shared) => (.error failure, s, shared)

end Blockwork.Session
