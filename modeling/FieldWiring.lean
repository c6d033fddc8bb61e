import FieldWiring.Generator
import FieldWiring.Style
import FieldWiring.Declaration
import FieldWiring.Settings
import FieldWiring.Proofs.Traversal
import FieldWiring.Proofs.Emission
import FieldWiring.Proofs.Batch
import FieldWiring.Proofs.LogGrammar
import FieldWiring.Proofs.Reordering
import FieldWiring.Proofs.Composition
import FieldWiring.Proofs.Registration
import FieldWiring.Proofs.Membership
import FieldWiring.Proofs.Growth
import FieldWiring.Proofs.Decoding
import FieldWiring.Proofs.Comments
import FieldWiring.Proofs.Arguments
import FieldWiring.Proofs.Rounding
import FieldWiring.Proofs.Shortest
import FieldWiring.Proofs.Conversion
import FieldWiring.Proofs.Numerals
import FieldWiring.Proofs.Decimals
import FieldWiring.Proofs.Tokens
import FieldWiring.Proofs.Documents
import FieldWiring.Proofs.Layers
import FieldWiring.Proofs.Refusal
import FieldWiring.Proofs.Lexing
import FieldWiring.Proofs.Arrangement
import FieldWiring.Proofs.Types.Grammar
import FieldWiring.Proofs.Types.Copying
import FieldWiring.Proofs.Types.Beginnings
import FieldWiring.Proofs.Types.Paths
import FieldWiring.Proofs.Types.Bounds
import FieldWiring.Proofs.Types.Compounds
import FieldWiring.Proofs.Types.Lengths
import FieldWiring.Proofs.Types.Printing
import FieldWiring.Proofs.TypeNames
import FieldWiring.Proofs.Description
import FieldWiring.Proofs.Accessors
import FieldWiring.Proofs.Exposure
import FieldWiring.Proofs.Getters
import FieldWiring.Proofs.Identifiers
