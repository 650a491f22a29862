import CookTail.Foundation.Lines
import CookTail.Remote.ReadFile
import CookTail.Backwards.TailBackwards
import CookTail.Backwards.Walk
import CookTail.Backwards.Received
import CookTail.Backwards.ZeroLines
import CookTail.Backwards.LastLines
import CookTail.Backwards.Correctness
import CookTail.Backwards.Buffers
import CookTail.Backwards.Failure
import CookTail.Follow.TailFollow
import CookTail.Command.Tail
