import ShopLens.Main
import ShopLens.Files.Tree
import ShopLens.Session.Hidden
import ShopLens.Proofs.Filter.Height
import ShopLens.Proofs.Filter.Recursion
import ShopLens.Proofs.Tabs.Settling
import ShopLens.Proofs.Tabs.Identity
import ShopLens.Proofs.Tabs.Shape
import ShopLens.Proofs.Rule.Alternatives
import ShopLens.Proofs.Rule.Idempotence
import ShopLens.Proofs.Rule.Conjunction
import ShopLens.Proofs.Rule.Alignment
import ShopLens.Proofs.Rule.Literals
import ShopLens.Proofs.Session.Trial
import ShopLens.Proofs.Session.Pace
import ShopLens.Proofs.Purchase.Counts
import ShopLens.Proofs.Session.Coherence
import ShopLens.Proofs.Session.Reload
import ShopLens.Proofs.Rule.Precedence
import ShopLens.Proofs.Rule.Breaks
import ShopLens.Proofs.Session.Switch
import ShopLens.Proofs.Command.Check
import ShopLens.Proofs.Session.Hidden
import ShopLens.Proofs.Session.Places
import ShopLens.Proofs.Rule.Demands
import ShopLens.Proofs.Rule.IdleLines
import ShopLens.Proofs.Affix.Signals
import ShopLens.Proofs.Affix.LetterCase
import ShopLens.Proofs.Tabs.Resolution
import ShopLens.Proofs.Purchase.Firings
import ShopLens.Proofs.Window.Snapshots
import ShopLens.Proofs.Color
import ShopLens.Proofs.Filter.Sameness
import ShopLens.Proofs.Filter.Order
import ShopLens.Proofs.Filter.Faults
