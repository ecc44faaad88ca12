import ConfigTabs.Emit.Markup
import ConfigTabs.Main
import ConfigTabs.Snippet.Source
import ConfigTabs.Text.Count
import ConfigTabs.Proofs.Render
import ConfigTabs.Proofs.JsonRoundTrip
import ConfigTabs.Proofs.Markup
import ConfigTabs.Proofs.FileTree
import ConfigTabs.Proofs.Jobs
import ConfigTabs.Proofs.Build
import ConfigTabs.Proofs.Paths
import ConfigTabs.Proofs.PathEdits
import ConfigTabs.Proofs.Validation
import ConfigTabs.Proofs.Walk
import ConfigTabs.Proofs.Check
import ConfigTabs.Proofs.Placement
import ConfigTabs.Proofs.Directories
import ConfigTabs.Proofs.Order
import ConfigTabs.Proofs.Blocks
import ConfigTabs.Proofs.Loading
import ConfigTabs.Proofs.Planning
import ConfigTabs.Proofs.Trim
import ConfigTabs.Proofs.Fence
import ConfigTabs.Proofs.Settings
import ConfigTabs.Proofs.TomlDatetimes
import ConfigTabs.Proofs.TemplateEscapes
import ConfigTabs.Proofs.Discovery
import ConfigTabs.Proofs.TomlKeys
import ConfigTabs.Proofs.SettingsDocument
