namespace ToolDock

inductive EventKind where
  | registerToolWindow
  | unregisterToolWindow
  | showToolWindow
  | toolWindowShown
  | hideToolWindow
  | activateToolWindow
  | setToolWindowAnchor
  | setToolWindowType
  | setSideTool
  | setSideToolAndAnchor
  | setToolWindowAutoHide
  | setContentUiType
  | setShowStripeButton
  | toolWindowAvailable
  | toolWindowUnavailable
  | movedOrResized
  | setLayout
deriving DecidableEq, Repr

def EventKind.name : EventKind → String
  | .registerToolWindow => "register_tool_window"
  | .unregisterToolWindow => "unregister_tool_window"
  | .showToolWindow => "show_tool_window"
  | .toolWindowShown => "tool_window_shown"
  | .hideToolWindow => "hide_tool_window"
  | .activateToolWindow => "activate_tool_window"
  | .setToolWindowAnchor => "set_tool_window_anchor"
  | .setToolWindowType => "set_tool_window_type"
  | .setSideTool => "set_side_tool"
  | .setSideToolAndAnchor => "set_side_tool_and_anchor"
  | .setToolWindowAutoHide => "set_tool_window_auto_hide"
  | .setContentUiType => "set_content_ui_type"
  | .setShowStripeButton => "set_show_stripe_button"
  | .toolWindowAvailable => "tool_window_available"
  | .toolWindowUnavailable => "tool_window_unavailable"
  | .movedOrResized => "moved_or_resized"
  | .setLayout => "set_layout"

structure Event where
  kind : EventKind
  /-- None for an event of the whole layout. -/
  id : Option String
deriving DecidableEq, Repr

end ToolDock
