import AxisEngine.Abm.ContentCache
import AxisEngine.Abm.IntroductionTimes
import AxisEngine.Abm.RunsDue
import AxisEngine.Bedrock.MolangGrammar
import AxisEngine.Channels.Membership
import AxisEngine.Chat.PromptRuns
import AxisEngine.Client.CameraFx
import AxisEngine.Client.CanonicalCode
import AxisEngine.Client.Transfer
import AxisEngine.Client.WorldSurvival
import AxisEngine.Config.CrateClient
import AxisEngine.Config.DirectoryRun
import AxisEngine.Config.OtherSettings
import AxisEngine.Content.LoadOrder
import AxisEngine.Craft.CraftAction
import AxisEngine.Craft.ShapedMatch
import AxisEngine.Craft.ShapelessMatch
import AxisEngine.DynamicMedia.AllOrNothing
import AxisEngine.Emerge.Completion
import AxisEngine.Inventory.Queries
import AxisEngine.Inventory.Sync
import AxisEngine.Json.OddAnswers
import AxisEngine.KdTrees.FullRange
import AxisEngine.Login.Accounts
import AxisEngine.Login.JoinLeave
import AxisEngine.Login.Proven
import AxisEngine.Map.AirCache
import AxisEngine.Map.DatabaseKeys
import AxisEngine.Map.GenerationLocks
import AxisEngine.Map.LiquidsSettle
import AxisEngine.Map.LoadBlock
import AxisEngine.Map.MonoBlock
import AxisEngine.Map.NodeTimers
import AxisEngine.Media.BundleFormat
import AxisEngine.Media.RemoteFirst
import AxisEngine.Menu.OneDispatcher
import AxisEngine.Mesh.NewestMesh
import AxisEngine.Mtp.BufferRuns
import AxisEngine.Mtp.EndToEnd
import AxisEngine.Mtp.Numbering
import AxisEngine.Mtp.RoundTripTimes
import AxisEngine.Mtp.WindowSize
import AxisEngine.Net.NetImpairment
import AxisEngine.Rollback.RevertActions
import AxisEngine.Server.FacePositions
import AxisEngine.Skins.Worn
import AxisEngine.Util.AreaCache
import AxisEngine.Util.ModifySafeRuns
import AxisEngine.Util.MutexedQueue
import AxisEngine.Util.Sanitize
