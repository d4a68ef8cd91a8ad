import StyleBump.Folder
import StyleBump.Main
import StyleBump.Proofs.Absence
import StyleBump.Proofs.Accumulation
import StyleBump.Proofs.AuthoredRules
import StyleBump.Proofs.Commands
import StyleBump.Proofs.Locations
import StyleBump.Proofs.Mirroring
import StyleBump.Proofs.Regrouping
import StyleBump.Proofs.Replaying
import StyleBump.Proofs.Shape
import StyleBump.Proofs.ValueTokens
import StyleBump.Proofs.WrittenBlock
import StyleBump.Proofs.Seeking
import StyleBump.Proofs.NormalForm
import StyleBump.Proofs.Overriding
import StyleBump.Proofs.BlockLoop
