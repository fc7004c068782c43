import FoodScan.Main
import FoodScan.Record.Codec
import FoodScan.Proofs.Json.Reader
import FoodScan.Proofs.Query.Concatenation
import FoodScan.Proofs.Query.Monotonicity
import FoodScan.Proofs.Query.PrintedRecord
import FoodScan.Proofs.Record.Identifier
import FoodScan.Proofs.Query.Alike
import FoodScan.Proofs.Record.FirstOffender
import FoodScan.Proofs.Record.Leaves
import FoodScan.Proofs.Query.RereadRecord
import FoodScan.Proofs.Query.Writing
import FoodScan.Proofs.Loading.GuaranteedFields
import FoodScan.Proofs.Loading.MetadataValues
import FoodScan.Proofs.Loading.NameIndependence
import FoodScan.Proofs.Session.Agreement
import FoodScan.Proofs.Session.NoTrace
import FoodScan.Proofs.Session.SettingsOverTime
import FoodScan.Proofs.Record.LastDefinitions
import FoodScan.Proofs.Query.SameValues
import FoodScan.Proofs.Query.LastMembers
import FoodScan.Proofs.Record.ShownValues
import FoodScan.Proofs.Record.Conversions
import FoodScan.Proofs.Report.Warnings
import FoodScan.Proofs.Report.RecordLines
