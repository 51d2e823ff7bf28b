import ResponsiveCss.CommandLine.Run
import ResponsiveCss.Files.Tree
import ResponsiveCss.Main
import ResponsiveCss.Proofs.Expansion.Rerun
import ResponsiveCss.Proofs.Expansion.Incremental
import ResponsiveCss.Proofs.Expansion.Balance
import ResponsiveCss.Proofs.Expansion.Untouched
import ResponsiveCss.Proofs.Expansion.Replacing
import ResponsiveCss.Proofs.Expansion.Relisted
import ResponsiveCss.Proofs.Expansion.Distinct
import ResponsiveCss.Proofs.Breakpoints
import ResponsiveCss.Proofs.CommandLine.Printing
import ResponsiveCss.Proofs.Location
import ResponsiveCss.Proofs.Token.Tiling
import ResponsiveCss.Proofs.Stylesheet.Removal
import ResponsiveCss.Proofs.Stylesheet.Kept
import ResponsiveCss.Proofs.Stylesheet.Places
import ResponsiveCss.Proofs.Stylesheet.Derivation
import ResponsiveCss.Proofs.Stylesheet.Concatenation
import ResponsiveCss.Proofs.Stylesheet.Closing
import ResponsiveCss.Proofs.CommandLine.Storing
import ResponsiveCss.Proofs.Text.Squeezed
import ResponsiveCss.Proofs.Stylesheet.Styles
import ResponsiveCss.Proofs.CommandLine.Building
import ResponsiveCss.Proofs.Json.Grammar
import ResponsiveCss.Proofs.Json.Numerals
import ResponsiveCss.Proofs.Json.Strings
import ResponsiveCss.Proofs.Json.Values
import ResponsiveCss.Proofs.Options
import ResponsiveCss.Proofs.Breakpoints.Pair
import ResponsiveCss.Proofs.Expansion.Log
import ResponsiveCss.Proofs.Stylesheet.Progress
