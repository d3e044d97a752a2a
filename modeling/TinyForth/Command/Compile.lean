import TinyForth.Compiler
import TinyForth.Failure

/-!
# The compile command

The command takes the name of a source file.  It compiles the source and writes the module
twice beside it, under the source's name with the extensions `.wat` and `.wasm`.  Nothing
is opened for writing before the whole source is compiled, so a source with an error leaves
the tree alone.  The first file is complete before the second is opened.

The second file should hold the module in the binary format.  Assembling is not part of
this library, so the format is a parameter, as is the order in which a module declares its
variables (`Toolchain`).  Where no toolchain is given, the second file holds the text format,
as the first does, and nothing can go wrong in making it.
-/

namespace TinyForth.Command

/-- The notice about a wrong number of arguments. -/
def compileUsage : Text := "Please specify the name of the Forth source file.".toList

/-- The notice about a source file that is not there. -/
def notFound (name : Text) : Text := "Oops! File not found: ".toList ++ name

/-- The argument of a command line that is the command's own name and one argument.  Any other
is refused. -/
def argument (usage : Text) : List Text → Except Ending Text
  | [_, name] => .ok name
  | _ => .error (.refused usage)

/-- The words of a source file's bytes, comments included. -/
def wordsOfBytes (bytes : List UInt8) : Except Failure (List Word) :=
  match Utf8.decode bytes with
  | .error fault => .error (.encoding fault)
  | .ok source => .ok (Compiler.sourceWords source)

/-- The words of the source file that the command line names.  The notice about a missing
file shows the name `shown`. -/
def readSource (tree : FileTree) (args : List Text) (shown : Text) : Except Ending (List Word) :=
  match args[1]? with
  | none => .error (.failed .noArgument)
  | some name =>
      match tree.read name with
      | .error ⟨.missing, _⟩ => .error (.refused (notFound shown))
      | .error e => .error (.failed (.file e))
      | .ok bytes => (wordsOfBytes bytes).mapError .failed

/-- A format of module files: the bytes of a module's text, or the failure to make them. -/
abbrev Format := Text → Except Failure (List UInt8)

/-- The text format, which is the text in UTF-8. -/
def Format.text : Format := fun module => .ok (Utf8.encode module)

/-- What a file holds that was opened for a module.  If the module has no bytes, it stays empty. -/
def Format.content (format : Format) (module : Text) : List UInt8 :=
  (format module).toOption.getD []

/-- Why a module has no bytes. -/
def Format.failure? (format : Format) (module : Text) : Option Failure :=
  match format module with
  | .error failure => some failure
  | .ok _ => none

/-- What the command leaves open. -/
structure Toolchain where
  /-- The order in which a module declares its variables. -/
  listing : Word.Listing
  /-- The binary format. -/
  binary : Format

/-- Declarations in ascending order, and the text format in place of the binary one. -/
abbrev Toolchain.standard : Toolchain := ⟨.ascending, .text⟩

/-- The tree after a module is written to a file, and the failure if there is one.  The file is
opened first, so a module that has no bytes leaves it empty. -/
def writeModule (tree : FileTree) (name ext module : Text) (format : Format := .text) :
    FileTree × Option Failure :=
  match tree.write (name ++ ext) (format.content module) with
  | .error e => (tree, some (.file e))
  | .ok tree => (tree, format.failure? module)

/-- The extension of the text format. -/
def watExtension : Text := ".wat".toList

/-- The extension of the binary format. -/
def wasmExtension : Text := ".wasm".toList

/-- A run of the compile command. -/
structure Compilation where
  /-- The files afterwards. -/
  tree : FileTree
  /-- What was written to the standard output. -/
  stdout : Text := []
  /-- How the command ends. -/
  ending : Ending

/-- The run that writes a module in both formats. -/
def writeOutputs (tree : FileTree) (root module : Text) (binary : Format := .text) : Compilation :=
  match writeModule tree root watExtension module with
  | (tree, some failure) => { tree, ending := .failed failure }
  | (tree, none) =>
      let (tree, failure?) := writeModule tree root wasmExtension module binary
      { tree, ending := failure?.elim .done .failed }

/-- The module of a source file's words, comments included. -/
def moduleOfWords (ws : List Word) (listing : Word.Listing := .ascending) : Except Failure Text :=
  (Compiler.compileWords .standard (Comment.strip ws) listing).mapError .word

/-- The name of the outputs without an extension, and the module of the source file that the
command line names. -/
def compileSource (tree : FileTree) (args : List Text) (listing : Word.Listing := .ascending) :
    Except Ending (Text × Text) := do
  let name ← argument compileUsage args
  let ws ← readSource tree args name
  let module ← (moduleOfWords ws listing).mapError .failed
  return (FileName.root name, module)

/-- The run of the compile command. -/
def compile (tree : FileTree) (args : List Text) (tools : Toolchain := .standard) : Compilation :=
  match compileSource tree args tools.listing with
  | .error ending => { tree, ending }
  | .ok (root, module) => writeOutputs tree root module tools.binary

end TinyForth.Command
