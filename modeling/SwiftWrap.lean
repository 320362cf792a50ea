import SwiftWrap.Command.Line
import SwiftWrap.Files.Tree
import SwiftWrap.Main
import SwiftWrap.Proofs.Blame
import SwiftWrap.Proofs.Cases
import SwiftWrap.Proofs.Emission
import SwiftWrap.Proofs.Extension
import SwiftWrap.Proofs.FixedForm
import SwiftWrap.Proofs.Linked
import SwiftWrap.Proofs.Linking
import SwiftWrap.Proofs.Outline
import SwiftWrap.Proofs.Placement
import SwiftWrap.Proofs.Preorder
import SwiftWrap.Proofs.Reordering
import SwiftWrap.Proofs.RoundTrip
import SwiftWrap.Proofs.Token
import SwiftWrap.Schema.Edit
import SwiftWrap.Proofs.Grounded
import SwiftWrap.Proofs.Session
import SwiftWrap.Proofs.Decoding
import SwiftWrap.Proofs.Effects
import SwiftWrap.Proofs.Blocks
import SwiftWrap.Proofs.Members
import SwiftWrap.Proofs.Conversions
import SwiftWrap.Proofs.Coverage
import SwiftWrap.Proofs.Names
import SwiftWrap.Proofs.Comments
import SwiftWrap.Proofs.Locals
import SwiftWrap.Proofs.Relinking
import SwiftWrap.Proofs.Collisions
import SwiftWrap.Proofs.FieldLine
import SwiftWrap.Proofs.Writing
import SwiftWrap.Proofs.Balance
import SwiftWrap.Proofs.Interleaving
import SwiftWrap.Proofs.ItemOrder
