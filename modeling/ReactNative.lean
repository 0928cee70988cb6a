import ReactNative.Mounting.Flattening
import ReactNative.Mounting.MountingCoordinator
import ReactNative.Events.EventQueue
import ReactNative.Bridge.CallbackRouting
import ReactNative.Interaction.TaskQueueCorrectness
import ReactNative.Interaction.InteractionManager
import ReactNative.Timers.TimerErrors
import ReactNative.Animated.UpdateCorrectness
import ReactNative.UIManager.PendingDeletions
import ReactNative.UIManager.ViewsExist
import ReactNative.Inspector.WakeUps
import ReactNative.Inspector.Answers
import ReactNative.Events.EventDispatcherCorrectness
import ReactNative.Events.TouchCoalescing
import ReactNative.Animated.TagLeaks
import ReactNative.Mounting.RCTMountingManager
import ReactNative.Network.RCTMultipartChunks
import ReactNative.Events.ListenerCounts
import ReactNative.Network.XMLHttpRequestCorrectness
import ReactNative.UIManager.UIViewOperationQueueCorrectness
import ReactNative.Mounting.FabricUIManagerCorrectness
import ReactNative.Lists.VirtualizedListCorrectness
import ReactNative.Mounting.TinyMapRefinement
import ReactNative.Core.RawPropsLookup
import ReactNative.Components.YogaNeedsLayout
import ReactNative.Lists.RenderStops
import ReactNative.Lists.RenderedCells
import ReactNative.Lists.MinimumViewTime
import ReactNative.Lists.SectionSelection
import ReactNative.Lists.SectionKeys
import ReactNative.Timers.TimerPeriods
import ReactNative.UIManager.UIBlocks
import ReactNative.Components.LeftAndRight
import ReactNative.Core.StateRevisions
import ReactNative.Core.LayoutContexts
import ReactNative.UIManager.NodeQueries
import ReactNative.UIManager.NativeProps
import ReactNative.Interaction.PressFeedback
import ReactNative.Interaction.HoverFeedback
import ReactNative.Mounting.MountItemCount
import ReactNative.UIManager.ManageChildrenErrors
import ReactNative.Events.SurfaceTouchEvents
import ReactNative.Events.TouchIdentifiers
import ReactNative.Bridge.CallNumbers
import ReactNative.Animated.CompositeAnimations
import ReactNative.Animated.FrameDrivers
import ReactNative.Network.TextDecoding
import ReactNative.LogBox.LogBoxData
import ReactNative.Storage.AsyncStorageBatches
import ReactNative.Utilities.MatrixDecomposition
import ReactNative.StyleSheet.ColorChannels
import ReactNative.LogBox.ParseLogBoxLog
import ReactNative.Bridge.ModuleRegistry
import ReactNative.Utilities.StringifySafe
import ReactNative.Utilities.DeepDiffer
import ReactNative.Interaction.PanResponder
import ReactNative.Timers.ReactChoreographer
import ReactNative.Mounting.MountedFlag
import ReactNative.Mounting.StateReconciliation
