import FuturesBot.Exchange.Conservation
import FuturesBot.Risk.Estimates

namespace FuturesBot
open Lib

namespace PaperAdapter

end PaperAdapter

end FuturesBot
