import BlockData.BlockEntity.Converter
import BlockData.Chain.Load
import BlockData.CommandLine.Run
import BlockData.Json.Outline
import BlockData.Main
import BlockData.Rule.JsonSchema
import BlockData.Tag.Equality
import BlockData.Tag.Text
import BlockData.Proofs.Dict
import BlockData.Proofs.Schema.Steps
import BlockData.Proofs.Schema.Effect
import BlockData.Proofs.Schema.Pending
import BlockData.Proofs.Chain.Reordered
import BlockData.Proofs.BlockState.Tag
import BlockData.Proofs.Chain.Documents
import BlockData.Proofs.Chain.Lowercase
import BlockData.Proofs.Chain.Concern
import BlockData.Proofs.Chain.Order
import BlockData.Proofs.Chain.Selection
import BlockData.Proofs.Chain.Stages
import BlockData.Proofs.CommandLine.Upgrade
import BlockData.Proofs.CommandLine.StoredVersion
import BlockData.Proofs.Json.Decoder
import BlockData.Proofs.Tag.Text
import BlockData.Proofs.Rule.Text
import BlockData.Proofs.CommandLine.Reprint
import BlockData.Proofs.Chain.Written
import BlockData.Proofs.Schema.Defects
import BlockData.Proofs.Schema.Shape
import BlockData.Proofs.Chain.NewIds
import BlockData.Proofs.BlockState.RoundTrip
import BlockData.Proofs.Schema.Renames
import BlockData.Proofs.Chain.Unversioned
import BlockData.Proofs.Text.Blank
import BlockData.Proofs.Version.Text
import BlockData.Proofs.BlockEntity.Copy
import BlockData.Proofs.BlockEntity.Pot
import BlockData.Proofs.BlockEntity.Fields
import BlockData.Proofs.Chain.Directory
import BlockData.Proofs.Tag.Reordered
import BlockData.Proofs.Dict.History
import BlockData.Proofs.Tag.History
import BlockData.Proofs.Schema.Lookups
import BlockData.Proofs.Json.Described
import BlockData.Proofs.Rule.Schema
import BlockData.Proofs.Json.Outline
