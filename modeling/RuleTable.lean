import RuleTable.Batch.Basic
import RuleTable.Check.Rows
import RuleTable.Json.Reader
import RuleTable.Json.Writer
import RuleTable.Proofs.Table.Shown
import RuleTable.Session
import RuleTable.Text.Duration
import RuleTable.Proofs.Table.Parts
import RuleTable.Proofs.Check.Written
import RuleTable.Proofs.Table.Cells
import RuleTable.Proofs.Reading.Values
import RuleTable.Proofs.Table.Division
import RuleTable.Proofs.Table.Rows
import RuleTable.Proofs.Conversion.Complete
import RuleTable.Proofs.Table.Meaning
import RuleTable.Proofs.Conversion.Ids
import RuleTable.Proofs.Table.Ids
import RuleTable.Proofs.Reading.Conjunction
import RuleTable.Proofs.Reading.RoundTrip
import RuleTable.Proofs.Xml.Recognition
import RuleTable.Proofs.Text.Lines
import RuleTable.Proofs.Reading.Texts
import RuleTable.Proofs.Reading.LetterCase
import RuleTable.Proofs.Files.View
import RuleTable.Proofs.Files.Way
import RuleTable.Proofs.Files.Writing
import RuleTable.Proofs.Batch.Order
import RuleTable.Proofs.Batch.Task
import RuleTable.Proofs.Batch.Pool
import RuleTable.Proofs.Batch.Schedule
import RuleTable.Proofs.Batch.Sequential
import RuleTable.Proofs.Batch.Names
import RuleTable.Proofs.Batch.Tables
import RuleTable.Proofs.Reading.Passage
import RuleTable.Proofs.Reading.Pieces
import RuleTable.Proofs.Reading.Separator
import RuleTable.Proofs.Reading.Operands
import RuleTable.Proofs.Reading.Shapes
import RuleTable.Proofs.Table.Filled
import RuleTable.Proofs.Table.Numbers
import RuleTable.Proofs.Table.Literals
import RuleTable.Proofs.Check.Repetitions
import RuleTable.Proofs.Reading.Signs
import RuleTable.Proofs.Reading.FullStop
import RuleTable.Proofs.Batch.Delivery
import RuleTable.Proofs.Batch.Search
import RuleTable.Proofs.Xml.CodePoints
import RuleTable.Proofs.Xml.Placement
import RuleTable.Proofs.Rule.ColumnNames
