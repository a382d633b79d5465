import SwiftDecl.Decl.Node
import SwiftDecl.File.Date
import SwiftDecl.Options.Basic

/-!
# Source files

A source file holds one type: a comment header, the imports, and the
declaration. A header that shows a date shows the one of the file, or that of
the day on which it is rendered.
-/

set_option autoImplicit false

namespace SwiftDecl
open SwiftDecl.Layout

structure SourceFile where
  decl : TypeDecl
  options : Options
  date : Option Date

namespace SourceFile

def name (file : SourceFile) : String :=
  file.decl.typeName ++ ".swift"

def imports (file : SourceFile) : Modules :=
  file.decl.imports

def generator : String :=
  "SwiftPoet"

def infoLines (file : SourceFile) : List String :=
  match file.options.generatorInfo with
  | none => []
  | some info => ["  " ++ info]

def dateLines (file : SourceFile) (today : Date) : List String :=
  if file.options.addGenerationDate then ["  on " ++ (file.date.getD today).text] else []

def headerLines (file : SourceFile) (today : Date) : List String :=
  ["", "  " ++ file.name, "", "  Contains:",
   "  " ++ file.decl.kind.keyword ++ " " ++ file.decl.typeName, "",
   "  Generated by " ++ generator] ++
    file.infoLines ++ file.dateLines today ++ [""]

def commentLine (line : String) : String :=
  "//" ++ line ++ "\n"

def header (file : SourceFile) (today : Date) : String :=
  String.join ((file.headerLines today).map commentLine)

def importSection (file : SourceFile) : String :=
  if file.imports.isEmpty then "" else file.imports.render ++ "\n"

def writer (file : SourceFile) : Writer :=
  (Writer.new file.options.indent).run file.decl.ops

def contents (file : SourceFile) (today : Date) : String :=
  file.header today ++ "\n" ++ file.importSection ++ file.writer.text

def events (file : SourceFile) : List Event :=
  .renderingFile file.name file.imports.size :: file.writer.events

end SourceFile

end SwiftDecl
