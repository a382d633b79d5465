import SwiftDecl.Decl.Node
import SwiftDecl.Disk.Save
import SwiftDecl.File.Generate
import SwiftDecl.Layout.Writer
import SwiftDecl.Name.Identifier
import SwiftDecl.Options.Reader
import SwiftDecl.Proofs.Acceptance
import SwiftDecl.Proofs.Adoption
import SwiftDecl.Proofs.Documentation
import SwiftDecl.Proofs.FieldText
import SwiftDecl.Proofs.FileHeader
import SwiftDecl.Proofs.Flattening
import SwiftDecl.Proofs.ImportSection
import SwiftDecl.Proofs.LineStarts
import SwiftDecl.Proofs.Lookalikes
import SwiftDecl.Proofs.Policies
import SwiftDecl.Proofs.Readability
import SwiftDecl.Proofs.Recleaning
import SwiftDecl.Proofs.Replacement
import SwiftDecl.Proofs.ScopeMarks
import SwiftDecl.Proofs.WidthErrors
import SwiftDecl.Proofs.WordBoundaries
import SwiftDecl.Toml.Representable
