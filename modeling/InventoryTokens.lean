import InventoryTokens.Command
import InventoryTokens.Fixture.Load
import InventoryTokens.Json.Reader
import InventoryTokens.Json.Writer
import InventoryTokens.Main
import InventoryTokens.Registry
import InventoryTokens.Proofs.Double.Rounding
import InventoryTokens.Proofs.Text.Cutting
import InventoryTokens.Proofs.Text.Digits
import InventoryTokens.Proofs.Table
import InventoryTokens.Proofs.Grid
import InventoryTokens.Proofs.Key
import InventoryTokens.Proofs.Decode
import InventoryTokens.Proofs.Item
import InventoryTokens.Proofs.Inventory
import InventoryTokens.Proofs.SlotPlaceholder
import InventoryTokens.Proofs.SlotToken
import InventoryTokens.Proofs.Registry
import InventoryTokens.Proofs.Host.Run
import InventoryTokens.Proofs.Json.Quoted
import InventoryTokens.Proofs.Json.Values
import InventoryTokens.Proofs.Inventory.Text
import InventoryTokens.Proofs.Inventory.Run
import InventoryTokens.Proofs.Toml.Quoted
import InventoryTokens.Proofs.Toml.Scalar
import InventoryTokens.Proofs.Toml.Assembly
import InventoryTokens.Proofs.Toml.Tidy
import InventoryTokens.Proofs.Toml.Values
import InventoryTokens.Proofs.Toml.Lines
import InventoryTokens.Proofs.Toml.Document
import InventoryTokens.Proofs.Toml.Fits
import InventoryTokens.Proofs.Fixture.Build
import InventoryTokens.Proofs.Fixture.Capture
import InventoryTokens.Proofs.Fixture.Canonical
import InventoryTokens.Proofs.Fixture.Ambiguity
import InventoryTokens.Proofs.Fixture.Text
import InventoryTokens.Proofs.Fixture.Answers
import InventoryTokens.Proofs.File.Saving
import InventoryTokens.Proofs.Settings
import InventoryTokens.Proofs.Command
import InventoryTokens.Proofs.Settings.Loading
import InventoryTokens.Proofs.Double.Value
import InventoryTokens.Proofs.Parameter
import InventoryTokens.Proofs.Double.Decimal
import InventoryTokens.Proofs.Double.Shortest
import InventoryTokens.Proofs.Double.Plain
import InventoryTokens.Proofs.Argument
import InventoryTokens.Proofs.Key.Grammar
import InventoryTokens.Proofs.Text.Pieces
import InventoryTokens.Proofs.Token
import InventoryTokens.Proofs.Dispatch
import InventoryTokens.Proofs.Json.Numbers
import InventoryTokens.Proofs.Json.Whole
import InventoryTokens.Proofs.Schema.Text
import InventoryTokens.Proofs.Rendering
import InventoryTokens.Proofs.Double.Nearest
import InventoryTokens.Proofs.Double.Numeral
import InventoryTokens.Proofs.Argument.Classes
