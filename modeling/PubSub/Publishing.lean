import PubSub.Directory

/-!
# The publish gate

Whether something may be published on a topic, and by whom it is served. A
denial is an answer and not a failure.
-/

namespace PubSub

structure PublishCheck where
  topic : String
  permitted : Bool
  publisher : Option String
  reason : String
  deriving DecidableEq

namespace Publishing

def deny (topic reason : String) : Conclusion PublishCheck :=
  .answer ⟨topic, false, none, reason⟩
    [.count "publish_denied_total", .event (.publishDenied topic reason)]

def check (topic : String) : Operation PublishCheck :=
  (Directory.activePublisher topic).concluding fun
    | .ok (some publisher) => .answer ⟨topic, true, some publisher, ""⟩
    | .ok none => deny topic "notification_disabled"
    | .error (.notFound ..) => deny topic "unregistered"
    | .error failure => .refuse failure

end Publishing

end PubSub
